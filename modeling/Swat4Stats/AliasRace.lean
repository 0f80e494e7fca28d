import Swat4Stats.ProfileNames

/-!
# Aliases that are created while names are derived

A denormalisation reads the aliases in one step and writes the names in a later one; a creation
takes its time first and commits later. The watermark of the names is the time of the write, so an
alias that comes after the read, or that was committed late under an early time, can pass for one
that was read.
-/

namespace Swat4Stats

set_option autoImplicit false

open Tx Transition Watermark

namespace AliasRace

open ProfileManager

/-- A creation that has its time and is not committed yet. -/
structure Creation where
  name : Text
  profile : ProfileId
  isp : Option IspId
  createdAt : Time
  deriving DecidableEq

/-- The alias names that the profiles had when they were read. -/
abbrev Reading := List (ProfileId × List Text)

structure State where
  db : Database
  now : Time
  creations : List Creation
  readings : List Reading

def initial : State := ⟨Database.empty, 0, [], []⟩

inductive Event where
  | createProfile (now : Time) (name : Text)
  | takeCreatedAt (now : Time) (name : Text) (profile : ProfileId) (isp : Option IspId)
  | commitAlias (now : Time) (creation : Creation)
  | readNames (now : Time) (profileIds : List ProfileId)
  | writeNames (now : Time) (reading : Reading)
  /-- The rest of the database changes. -/
  | elsewhere (now : Time) (change : Database → Database)

def Event.now : Event → Time
  | createProfile now _ => now
  | takeCreatedAt now _ _ _ => now
  | commitAlias now _ => now
  | readNames now _ => now
  | writeNames now _ => now
  | elsewhere now _ => now

/-- What `create_alias` does once the profile and the time are known. -/
def commit (creation : Creation) : DbTx Unit := atomic do
  let _ ← AliasManager.create creation.name creation.profile creation.isp creation.createdAt
  bumpAliasUpdatedAt creation.profile creation.createdAt

def Event.Enabled (s : State) : Event → Prop
  | takeCreatedAt _ _ profile _ => ∃ p ∈ s.db.profiles.rows, p.pk = profile
  | commitAlias _ creation => creation ∈ s.creations
  | writeNames _ reading => reading ∈ s.readings
  | elsewhere _ change => (change s.db).aliases.rows = s.db.aliases.rows ∧
      (change s.db).profiles.rows = s.db.profiles.rows
  | _ => True

def system : System State Event where
  enabled s e := s.now < e.now ∧ e.Enabled s
  next s
    | .createProfile now name => { s with db := ((ProfileManager.create name).run s.db).2, now }
    | .takeCreatedAt now name profile isp =>
      { s with now, creations := ⟨name, profile, isp, now⟩ :: s.creations }
    | .commitAlias now creation =>
      { s with
        db := ((commit creation).run s.db).2
        now
        creations := s.creations.erase creation }
    | .readNames now profileIds =>
      { s with now, readings := readAliasNames profileIds s.db :: s.readings }
    | .writeNames now reading =>
      { s with
        db := ((writeAliasNames now reading).run s.db).2
        now
        readings := s.readings.erase reading }
    | .elsewhere now change => { s with db := change s.db, now }

/-- `names` has every alias name of the profile but its own, unless it is to be derived anew. -/
def CoveredIn (db : Database) (p : Profile) : Prop :=
  requireDenormNames p = false → ∀ a ∈ db.aliases.rows, a.profile = p.pk →
    p.name ≠ some a.name → a.name ∈ p.names.getD []

def Covered (s : State) : Prop := ∀ p ∈ s.db.profiles.rows, CoveredIn s.db p

/-- A commit adds a name that is there already, or leaves the profile behind; a write knows every
alias that was committed since. -/
def MissesNothing (s : State) : Event → Prop
  | .commitAlias _ creation => ∀ p ∈ s.db.profiles.rows, p.pk = creation.profile →
      p.name = some creation.name ∨ creation.name ∈ p.names.getD [] ∨ requireDenormNames p ∨
        ∀ at' ∈ p.namesUpdatedAt, at' < creation.createdAt
  | .writeNames _ reading => ∀ p ∈ s.db.profiles.rows, ∀ aliasNames ∈ reading.lookup p.pk,
      ∀ a ∈ s.db.aliases.rows, a.profile = p.pk → p.name ≠ some a.name → a.name ∈ aliasNames
  | _ => True

/-- The references of the rows and the steps under way, and their times. -/
structure Sound (s : State) : Prop where
  owners : ∀ a ∈ s.db.aliases.rows, ∃ p ∈ s.db.profiles.rows, p.pk = a.profile
  creators : ∀ creation ∈ s.creations, ∃ p ∈ s.db.profiles.rows, p.pk = creation.profile
  times : ∀ creation ∈ s.creations, creation.createdAt ≤ s.now
  watermarks : ∀ p ∈ s.db.profiles.rows, ∀ at' ∈ p.aliasUpdatedAt, at' ≤ s.now

section Profiles

variable {db db' : Database} {p : Profile} {now createdAt : Time}

theorem requireDenormNames_bumped : requireDenormNames (bumped createdAt p) = true ↔
    requireDenormNames p = true ∨ ∀ at' ∈ p.namesUpdatedAt, at' < createdAt := by
  unfold bumped
  simp only [requireDenormNames]
  cases halias : p.aliasUpdatedAt with
  | none =>
    have hnever : isBehind none p.namesUpdatedAt = false := rfl
    simp only [Option.all_none, if_true, isBehind_some, hnever, Bool.false_eq_true, false_or]
  | some updatedAt =>
    simp only [Option.all_some, decide_eq_true_eq]
    split
    · rename_i hlt
      rw [isBehind_some, isBehind_some]
      constructor
      · exact .inr
      · rintro (hbehind | hbehind)
        · exact fun at' hat => (hbehind at' hat).trans hlt
        · exact hbehind
    · rename_i hge
      rw [halias, isBehind_some]
      constructor
      · exact .inl
      · rintro (hbehind | hbehind)
        · exact hbehind
        · exact fun at' hat => (hbehind at' hat).trans_le (not_lt.mp hge)

theorem bumped_columns : (bumped createdAt p).name = p.name ∧
    (bumped createdAt p).names = p.names := by
  unfold bumped
  split
  · exact ⟨rfl, rfl⟩
  · exact ⟨rfl, rfl⟩

theorem CoveredIn.congr (haliases : db'.aliases.rows = db.aliases.rows) :
    CoveredIn db' p ↔ CoveredIn db p := by
  rw [CoveredIn, CoveredIn, haliases]

end Profiles

theorem run_commit (creation : Creation) (db : Database) :
    ∃ (aliases : Table Alias Alias.pk) (profiles : Table Profile Profile.pk),
      (commit creation).run db = (.ok (), { db with aliases, profiles }) ∧
      (∃ a : Alias, aliases.rows = db.aliases.rows ++ [a] ∧ a.profile = creation.profile ∧
        a.name = creation.name) ∧
      profiles.rows = db.profiles.rows.map fun p =>
        if p.pk = creation.profile then bumped creation.createdAt p else p := by
  let aliases := db.aliases.create (fun pk => (⟨pk, creation.name, creation.profile, creation.isp,
    creation.createdAt, creation.createdAt⟩ : Alias)) fun _ => rfl
  obtain ⟨profiles, hrun, hrows⟩ :=
    run_bumpAliasUpdatedAt creation.profile creation.createdAt { db with aliases }
  refine ⟨aliases, profiles, ?_, ⟨_, Table.rows_create, rfl, rfl⟩, hrows⟩
  simp only [commit, AliasManager.create, run_atomic, run_bind, run_statement]
  rw [hrun]

section Steps

variable {s : State} {now : Time}

theorem exists_pk_map {rows : List Profile} {f : Profile → Profile} (hf : ∀ p, (f p).pk = p.pk)
    {profile : ProfileId} (h : ∃ p ∈ rows, p.pk = profile) :
    ∃ p ∈ rows.map f, p.pk = profile := by
  obtain ⟨p, hp, rfl⟩ := h
  exact ⟨f p, List.mem_map_of_mem hp, hf p⟩

theorem Sound.commitAlias (h : Sound s) (hnow : s.now < now) {creation : Creation}
    (hmem : creation ∈ s.creations) : Sound (system.next s (.commitAlias now creation)) := by
  obtain ⟨aliases, profiles, hrun, ⟨a, haliases, howner, _⟩, hprofiles⟩ := run_commit creation s.db
  have hpk : ∀ p : Profile,
      (if p.pk = creation.profile then bumped creation.createdAt p else p).pk = p.pk := by
    intro p
    split
    · exact bumped_pk _ p
    · rfl
  constructor
  · simp only [system, hrun, hprofiles, haliases]
    intro a' ha'
    obtain ha' | ha' := List.mem_append.mp ha'
    · exact exists_pk_map hpk (h.owners a' ha')
    · rw [List.mem_singleton.mp ha', howner]
      exact exists_pk_map hpk (h.creators creation hmem)
  · simp only [system, hrun, hprofiles]
    exact fun c hc => exists_pk_map hpk (h.creators c (List.mem_of_mem_erase hc))
  · exact fun c hc => (h.times c (List.mem_of_mem_erase hc)).trans hnow.le
  · simp only [system, hrun, hprofiles]
    intro p' hp' at' hat
    obtain ⟨p, hp, rfl⟩ := List.mem_map.mp hp'
    have hlater := fun at' hat => (h.watermarks p hp at' hat).trans hnow.le
    split at hat
    · unfold bumped at hat
      split at hat
      · cases hat
        exact (h.times creation hmem).trans hnow.le
      · exact hlater at' hat
    · exact hlater at' hat

theorem withNames_columns (now : Time) (reading : Reading) (p : Profile) :
    (withNames now reading p).pk = p.pk ∧
      (withNames now reading p).aliasUpdatedAt = p.aliasUpdatedAt := by
  unfold withNames
  split
  · exact ⟨rfl, rfl⟩
  · exact ⟨rfl, rfl⟩

theorem Sound.writeNames (h : Sound s) (hnow : s.now < now) (reading : Reading) :
    Sound (system.next s (.writeNames now reading)) := by
  obtain ⟨profiles, hrun, hprofiles⟩ := run_writeAliasNames now reading s.db
  have hpk := fun p => (withNames_columns now reading p).1
  constructor
  · simp only [system, hrun, hprofiles]
    exact fun a ha => exists_pk_map hpk (h.owners a ha)
  · simp only [system, hrun, hprofiles]
    exact fun c hc => exists_pk_map hpk (h.creators c hc)
  · exact fun c hc => (h.times c hc).trans hnow.le
  · simp only [system, hrun, hprofiles]
    intro p' hp' at' hat
    obtain ⟨p, hp, rfl⟩ := List.mem_map.mp hp'
    rw [(withNames_columns now reading p).2] at hat
    exact (h.watermarks p hp at' hat).trans hnow.le

theorem Sound.step (h : Sound s) {e : Event} (he : system.enabled s e) :
    Sound (system.next s e) := by
  obtain ⟨hnow, henabled⟩ := he
  have hnow : s.now ≤ e.now := hnow.le
  cases e with
  | createProfile now name =>
    refine ⟨?_, ?_, fun c hc => (h.times c hc).trans hnow, ?_⟩
    · intro a ha
      obtain ⟨p, hp, hpk⟩ := h.owners a ha
      exact ⟨p, Table.mem_create.mpr (.inl hp), hpk⟩
    · intro c hc
      obtain ⟨p, hp, hpk⟩ := h.creators c hc
      exact ⟨p, Table.mem_create.mpr (.inl hp), hpk⟩
    · intro p hp at' hat
      obtain hp | rfl := Table.mem_create.mp hp
      · exact (h.watermarks p hp at' hat).trans hnow
      · cases hat
  | takeCreatedAt now name profile isp =>
    refine ⟨h.owners, ?_, ?_, fun p hp at' hat => (h.watermarks p hp at' hat).trans hnow⟩
    · intro c hc
      obtain rfl | hc := List.mem_cons.mp hc
      · exact henabled
      · exact h.creators c hc
    · intro c hc
      obtain rfl | hc := List.mem_cons.mp hc
      · exact le_refl now
      · exact (h.times c hc).trans hnow
  | commitAlias now creation => exact h.commitAlias ‹_› henabled
  | readNames now profileIds =>
    exact ⟨h.owners, h.creators, fun c hc => (h.times c hc).trans hnow,
      fun p hp at' hat => (h.watermarks p hp at' hat).trans hnow⟩
  | writeNames now reading => exact h.writeNames ‹_› reading
  | elsewhere now change =>
    obtain ⟨haliases, hprofiles⟩ := henabled
    refine ⟨?_, ?_, fun c hc => (h.times c hc).trans hnow, ?_⟩
    · simp only [system, haliases, hprofiles]
      exact h.owners
    · simp only [system, hprofiles]
      exact h.creators
    · simp only [system, hprofiles]
      exact fun p hp at' hat => (h.watermarks p hp at' hat).trans hnow

theorem covered_congr {t : State} (haliases : t.db.aliases.rows = s.db.aliases.rows)
    (hprofiles : t.db.profiles.rows = s.db.profiles.rows) : Covered t ↔ Covered s := by
  simp only [Covered, hprofiles, CoveredIn.congr haliases]

theorem covered_createProfile (h : Sound s) (hs : Covered s) (name : Text) :
    Covered (system.next s (.createProfile now name)) := by
  intro p hp
  obtain hp | rfl := Table.mem_create.mp hp
  · exact hs p hp
  · intro _ a ha hpk
    obtain ⟨p, hp, howner⟩ := h.owners a ha
    exact absurd (howner.trans hpk) (s.db.profiles.lt_nextPk hp).ne

theorem covered_commitAlias (hs : Covered s) (creation : Creation) :
    Covered (system.next s (.commitAlias now creation)) ↔
      MissesNothing s (.commitAlias now creation) := by
  obtain ⟨aliases, profiles, hrun, ⟨a, haliases, howner, hname⟩, hprofiles⟩ :=
    run_commit creation s.db
  simp only [Covered, system, hrun, hprofiles, MissesNothing, List.forall_mem_map]
  refine forall₂_congr fun p hp => ?_
  split
  · rename_i hpk
    simp only [hpk, forall_const, CoveredIn, haliases, bumped_pk, bumped_columns]
    have hnever : ¬ requireDenormNames (bumped creation.createdAt p) = true ↔
        requireDenormNames (bumped creation.createdAt p) = false := iff_of_eq (Bool.not_eq_true _)
    rw [← hnever, requireDenormNames_bumped]
    constructor
    · intro hcovered
      by_contra hmissed
      simp only [not_or] at hmissed
      obtain ⟨hother, hmissing, hsettled⟩ := hmissed
      apply hmissing
      rw [← hname]
      apply hcovered (not_or.mpr hsettled) a (by simp) howner
      rwa [hname]
    · intro hadded hsettled a' ha' hpk' hother
      obtain ⟨hdenorm, hearlier⟩ := not_or.mp hsettled
      obtain ha' | ha' := List.mem_append.mp ha'
      · exact hs p hp (Bool.not_eq_true _ ▸ hdenorm) a' ha' (hpk'.trans hpk.symm) hother
      · obtain rfl := List.mem_singleton.mp ha'
        rw [hname] at hother ⊢
        obtain hsame | hmem | hbehind | hlater := hadded
        · exact absurd hsame hother
        · exact hmem
        · exact absurd hbehind hdenorm
        · exact absurd hlater hearlier
  · rename_i hpk
    refine iff_of_true (fun hdenorm a' ha' hpk' hother => ?_) fun h => absurd h hpk
    rw [haliases] at ha'
    obtain ha' | ha' := List.mem_append.mp ha'
    · exact hs p hp hdenorm a' ha' hpk' hother
    · rw [List.mem_singleton.mp ha', howner] at hpk'
      exact absurd hpk'.symm hpk

theorem covered_writeNames (h : Sound s) (hs : Covered s) (hnow : s.now < now)
    (reading : Reading) :
    Covered (system.next s (.writeNames now reading)) ↔
      MissesNothing s (.writeNames now reading) := by
  obtain ⟨profiles, hrun, hprofiles⟩ := run_writeAliasNames now reading s.db
  simp only [Covered, system, hrun, hprofiles, MissesNothing, List.forall_mem_map]
  refine forall₂_congr fun p hp => ?_
  have hsettled : isBehind p.aliasUpdatedAt (some now) = false :=
    isBehind_now fun at' hat => (h.watermarks p hp at' hat).trans hnow.le
  cases hlookup : reading.lookup p.pk with
  | none =>
    have hsame : withNames now reading p = p := by
      rw [withNames, hlookup]
    rw [hsame]
    apply iff_of_true (hs p hp)
    rintro aliasNames ⟨⟩
  | some aliasNames =>
    simp only [CoveredIn, withNames, hlookup, requireDenormNames, hsettled, forall_const,
      Option.getD_some, otherNames, List.mem_filter, decide_eq_true_eq, Option.mem_def,
      Option.some_inj, forall_eq']
    refine forall₄_congr fun a _ _ hother => ?_
    exact and_iff_left hother

/-- From a covered state, exactly the steps that miss nothing lead to a covered one. -/
theorem covered_step (h : Sound s) (hs : Covered s) {e : Event} (he : system.enabled s e) :
    Covered (system.next s e) ↔ MissesNothing s e := by
  obtain ⟨hnow, henabled⟩ := he
  cases e with
  | createProfile now name => exact iff_of_true (covered_createProfile h hs name) trivial
  | takeCreatedAt now name profile isp => exact iff_of_true hs trivial
  | commitAlias now creation => exact covered_commitAlias hs creation
  | readNames now profileIds => exact iff_of_true hs trivial
  | writeNames now reading => exact covered_writeNames h hs hnow reading
  | elsewhere now change =>
    exact iff_of_true ((covered_congr henabled.1 henabled.2).mpr hs) trivial

end Steps

/-- The steps of a run miss nothing exactly if every profile is covered all the way, whatever is
under way. -/
theorem covered_iff_of_run {events : List Event} {s : State} (h : Run system initial events s) :
    Run (system.restrict MissesNothing) initial events s ↔
      ∀ es t, es <+: events → Run system initial es t → Covered t := by
  have hsound : Sound initial := by
    refine ⟨?_, ?_, ?_, ?_⟩
    · rintro a ⟨⟩
    · rintro c ⟨⟩
    · rintro c ⟨⟩
    · rintro p ⟨⟩
  have hcovered : Covered initial := by
    rintro p ⟨⟩
  exact h.restrict_iff_forall_prefix (fun _ _ hs _ he => hs.step he)
    (fun _ _ hs hc he => covered_step hs hc he) hsound hcovered

section Example

def creationAt (createdAt : Time) (name : String) : Creation := ⟨name.toList, 1, none, createdAt⟩

def takeAt (now : Time) (name : String) : Event := .takeCreatedAt now name.toList 1 none

/-- One more alias of a name that is there already comes between the read and the write. -/
def knownName : List Event :=
  [.createProfile 1 "Serge".toList, takeAt 2 "Serge", takeAt 3 "Gordon",
    .commitAlias 4 (creationAt 2 "Serge"), .commitAlias 5 (creationAt 3 "Gordon"),
    .readNames 6 [1], takeAt 7 "Gordon", .commitAlias 8 (creationAt 7 "Gordon"),
    .writeNames 9 [(1, ["Serge".toList, "Gordon".toList])]]

/-- The second name comes between the read and the write. -/
def commitAfterRead : List Event :=
  [.createProfile 1 "Serge".toList, takeAt 2 "Serge", .commitAlias 3 (creationAt 2 "Serge"),
    .readNames 4 [1], takeAt 5 "Gordon", .commitAlias 6 (creationAt 5 "Gordon"),
    .writeNames 7 [(1, ["Serge".toList])]]

/-- The second name has its time before the write and is committed after it. -/
def commitAfterWrite : List Event :=
  [.createProfile 1 "Serge".toList, takeAt 2 "Serge", takeAt 3 "Gordon",
    .commitAlias 4 (creationAt 2 "Serge"), .readNames 5 [1],
    .writeNames 6 [(1, ["Serge".toList])], .commitAlias 7 (creationAt 3 "Gordon")]

instance (s : State) : ∀ e, Decidable (system.enabled s e)
  | .createProfile now _ | .readNames now _ =>
    inferInstanceAs (Decidable (s.now < now ∧ True))
  | .takeCreatedAt now _ profile _ =>
    inferInstanceAs (Decidable (s.now < now ∧ ∃ p ∈ s.db.profiles.rows, p.pk = profile))
  | .commitAlias now creation =>
    inferInstanceAs (Decidable (s.now < now ∧ creation ∈ s.creations))
  | .writeNames now reading => inferInstanceAs (Decidable (s.now < now ∧ reading ∈ s.readings))
  | .elsewhere now change => inferInstanceAs (Decidable (s.now < now ∧
      (change s.db).aliases.rows = s.db.aliases.rows ∧
        (change s.db).profiles.rows = s.db.profiles.rows))

instance (s : State) : ∀ e, Decidable (MissesNothing s e)
  | .commitAlias _ creation => inferInstanceAs (Decidable (∀ p ∈ s.db.profiles.rows,
      p.pk = creation.profile → p.name = some creation.name ∨ creation.name ∈ p.names.getD [] ∨
        requireDenormNames p ∨ ∀ at' ∈ p.namesUpdatedAt, at' < creation.createdAt))
  | .writeNames _ reading => inferInstanceAs (Decidable (∀ p ∈ s.db.profiles.rows,
      ∀ aliasNames ∈ reading.lookup p.pk, ∀ a ∈ s.db.aliases.rows, a.profile = p.pk →
        p.name ≠ some a.name → a.name ∈ aliasNames))
  | .createProfile _ _ | .takeCreatedAt _ _ _ _ | .readNames _ _ | .elsewhere _ _ =>
    inferInstanceAs (Decidable True)

theorem covered_of_knownName :
    Run system initial knownName (knownName.foldl system.next initial) ∧
      Covered (knownName.foldl system.next initial) := by
  have hrun : Run system initial knownName (knownName.foldl system.next initial) :=
    .of_admits (by decide +kernel)
  have hrestricted : Run (system.restrict MissesNothing) initial knownName
      (knownName.foldl system.next initial) :=
    .of_admits (by decide +kernel)
  exact ⟨hrun, (covered_iff_of_run hrun).mp hrestricted _ _ List.prefix_rfl hrun⟩

/-- Nothing is under way, no query selects the profile, and one of its names is missing. -/
def NameMissing (s : State) : Prop :=
  s.creations = [] ∧ s.readings = [] ∧ ∃ p ∈ s.db.profiles.rows,
    requireDenormNames p = false ∧ ∃ a ∈ s.db.aliases.rows, a.profile = p.pk ∧
      p.name ≠ some a.name ∧ a.name ∉ p.names.getD []

instance (s : State) : Decidable (NameMissing s) := inferInstanceAs (Decidable (_ ∧ _))

/-- In both orders the second name is missing at the end. -/
theorem second_name_missing :
    (∃ s, Run system initial commitAfterRead s ∧ NameMissing s) ∧
      ∃ s, Run system initial commitAfterWrite s ∧ NameMissing s := by
  have hruns : ∀ events ∈ [commitAfterRead, commitAfterWrite], system.Admits initial events ∧
      NameMissing (events.foldl system.next initial) := by
    decide +kernel
  obtain ⟨hread, hmissing⟩ := hruns commitAfterRead (by simp)
  obtain ⟨hwrite, hmissing'⟩ := hruns commitAfterWrite (by simp)
  exact ⟨⟨_, .of_admits hread, hmissing⟩, _, .of_admits hwrite, hmissing'⟩

end Example

end AliasRace

end Swat4Stats
