import Swat4Stats.Aliases
import Swat4Stats.Library.OrderedDict
import Swat4Stats.Library.Transition
import Swat4Stats.Library.Watermark
import Swat4Stats.Preferences

/-!
# Profile names and their search vector

`names` is derived from the aliases of a profile and its name, the search vector from `names` and
the name. Three watermarks tell what is to be derived anew; the name has none of its own.
-/

namespace Swat4Stats

set_option autoImplicit false

open Tx Transition Watermark

namespace ProfileManager

def requireDenormNames (profile : Profile) : Bool :=
  isBehind profile.aliasUpdatedAt profile.namesUpdatedAt

def requireSearchUpdate (profile : Profile) : Bool :=
  isBehind profile.namesUpdatedAt profile.searchUpdatedAt

/-- `Alias.objects.distinct("name").filter(profile_id=profile)`, in no particular order. -/
def uniqueAliasNames (profile : ProfileId) (db : Database) : List Text :=
  ((db.aliases.rows.filter fun a => a.profile = profile).map Alias.name).dedup

/-- The first query of `denorm_alias_names`: the alias names of each profile. -/
def readAliasNames (profileIds : List ProfileId) (db : Database) :
    List (ProfileId × List Text) :=
  (db.profiles.rows.filter fun p => p.pk ∈ profileIds).map
    fun p => (p.pk, uniqueAliasNames p.pk db)

def otherNames (profile : Profile) (aliasNames : List Text) : List Text :=
  aliasNames.filter fun name => profile.name ≠ some name

/-- The rest of `denorm_alias_names`. -/
def writeAliasNames (now : Time) (namePerProfile : List (ProfileId × List Text)) :
    DbTx Unit := do
  let profilesToUpdate ← read fun db =>
    db.profiles.rows.filter fun p => p.pk ∈ namePerProfile.map Prod.fst
  if profilesToUpdate = [] then
    pure ()
  else
    let names := profilesToUpdate.map fun p =>
      (p.pk, otherNames p ((namePerProfile.lookup p.pk).getD []))
    atomic do
      write fun db => { db with
        profiles := db.profiles.update (fun p => p.pk ∈ names.map Prod.fst)
          (fun p => { p with names := names.lookup p.pk }) fun _ => rfl }
      write fun db => { db with
        profiles := db.profiles.update (fun p => p.pk ∈ namePerProfile.map Prod.fst)
          (fun p => { p with namesUpdatedAt := some now }) fun _ => rfl }

def denormAliasNames (now : Time) (profileIds : List ProfileId) : DbTx Unit := do
  let namePerProfile ← read (readAliasNames profileIds)
  writeAliasNames now namePerProfile

def updateSearchVector (now : Time) (profileIds : List ProfileId) : DbTx Unit := atomic do
  write fun db => { db with
    profiles := db.profiles.update (fun p => p.pk ∈ profileIds)
      (fun p => { p with search := some (profileSearchVector p.name p.names) }) fun _ => rfl }
  write fun db => { db with
    profiles := db.profiles.update (fun p => p.pk ∈ profileIds)
      (fun p => { p with searchUpdatedAt := some now }) fun _ => rfl }

section Updates

variable {db : Database} {profile : ProfileId} {name : Text}

theorem mem_uniqueAliasNames :
    name ∈ uniqueAliasNames profile db ↔
      ∃ a ∈ db.aliases.rows, a.profile = profile ∧ a.name = name := by
  simp only [uniqueAliasNames, List.mem_dedup, List.mem_map, List.mem_filter, decide_eq_true_eq,
    and_assoc]

theorem lookup_selected {β : Type} {profiles : Table Profile Profile.pk} {p : Profile}
    (hp : p ∈ profiles.rows) (q : Profile → Bool) (f : Profile → β) :
    ((profiles.rows.filter q).map fun p => (p.pk, f p)).lookup p.pk =
      if q p then some (f p) else none := by
  have hpair : ∀ value, ((profiles.rows.filter q).map fun p => (p.pk, f p)).lookup p.pk =
      some value → q p = true ∧ value = f p := by
    intro value hlookup
    obtain ⟨l, m, hsplit, _⟩ := List.lookup_eq_some_iff.mp hlookup
    have hmem : (p.pk, value) ∈ (profiles.rows.filter q).map fun p => (p.pk, f p) := by
      rw [hsplit]
      simp
    obtain ⟨other, hother, heq⟩ := List.mem_map.mp hmem
    obtain ⟨hother, hq⟩ := List.mem_filter.mp hother
    obtain ⟨hpk, rfl⟩ := Prod.mk.inj heq
    rw [profiles.eq_of_key_eq hother hp hpk] at hq ⊢
    exact ⟨hq, rfl⟩
  split
  · rename_i hq
    have hmem : p.pk ∈ ((profiles.rows.filter q).map fun p => (p.pk, f p)).map Prod.fst := by
      rw [List.map_map]
      exact List.mem_map_of_mem (f := Profile.pk) (List.mem_filter.mpr ⟨hp, hq⟩)
    obtain ⟨value, hlookup⟩ := OrderedDict.mem_keys_iff_lookup.mp hmem
    rw [hlookup, (hpair value hlookup).2]
  · rename_i hq
    rw [Option.eq_none_iff_forall_ne_some]
    exact fun value hlookup => hq (hpair value hlookup).1

def bumped (createdAt : Time) (p : Profile) : Profile :=
  if p.aliasUpdatedAt.all fun updatedAt => updatedAt < createdAt then
    { p with aliasUpdatedAt := some createdAt }
  else p

theorem bumped_pk (createdAt : Time) (p : Profile) : (bumped createdAt p).pk = p.pk := by
  unfold bumped
  split
  · rfl
  · rfl

theorem run_bumpAliasUpdatedAt (profile : ProfileId) (createdAt : Time) (db : Database) :
    ∃ profiles : Table Profile Profile.pk,
      (bumpAliasUpdatedAt profile createdAt).run db = (.ok (), { db with profiles }) ∧
        profiles.rows = db.profiles.rows.map fun p =>
          if p.pk = profile then bumped createdAt p else p := by
  refine ⟨_, rfl, ?_⟩
  rw [Table.rows_update]
  refine List.map_congr_left fun p _ => ?_
  obtain hpk | hne := eq_or_ne p.pk profile
  · simp only [hpk, true_and, bumped, decide_eq_true_eq, if_true]
  · simp only [hne, false_and, decide_false, Bool.false_eq_true, if_false]

def withNames (now : Time) (namePerProfile : List (ProfileId × List Text)) (p : Profile) :
    Profile :=
  match namePerProfile.lookup p.pk with
  | some aliasNames =>
    { p with names := some (otherNames p aliasNames), namesUpdatedAt := some now }
  | none => p

theorem run_writeAliasNames (now : Time) (namePerProfile : List (ProfileId × List Text))
    (db : Database) :
    ∃ profiles : Table Profile Profile.pk,
      (writeAliasNames now namePerProfile).run db = (.ok (), { db with profiles }) ∧
        profiles.rows = db.profiles.rows.map (withNames now namePerProfile) := by
  simp only [writeAliasNames, run_bind, run_read]
  split
  · rename_i hnil
    refine ⟨db.profiles, rfl, ?_⟩
    rw [List.filter_eq_nil_iff] at hnil
    symm
    refine (List.map_congr_left fun p hp => ?_).trans (List.map_id _)
    rw [withNames, OrderedDict.lookup_eq_none fun hmem => hnil p hp (decide_eq_true hmem)]
    rfl
  · have hnames : ∀ p ∈ db.profiles.rows,
        ((db.profiles.rows.filter fun p => p.pk ∈ namePerProfile.map Prod.fst).map
          fun p => (p.pk, otherNames p ((namePerProfile.lookup p.pk).getD []))).lookup p.pk =
            (namePerProfile.lookup p.pk).map (otherNames p) := by
      intro p hp
      apply (lookup_selected hp _ _).trans
      obtain hmem | hmem := Classical.em (p.pk ∈ namePerProfile.map Prod.fst)
      · obtain ⟨value, hvalue⟩ := OrderedDict.mem_keys_iff_lookup.mp hmem
        rw [if_pos (decide_eq_true hmem), hvalue]
        rfl
      · rw [if_neg (by simpa using hmem), OrderedDict.lookup_eq_none hmem]
        rfl
    revert hnames
    generalize ((db.profiles.rows.filter fun p => p.pk ∈ namePerProfile.map Prod.fst).map
      fun p => (p.pk, otherNames p ((namePerProfile.lookup p.pk).getD []))) = names
    intro hnames
    simp only [run_atomic, run_bind, run_write]
    refine ⟨_, rfl, ?_⟩
    simp only [Table.rows_update, List.map_map]
    refine List.map_congr_left fun p hp => ?_
    have hiff : p.pk ∈ names.map Prod.fst ↔ p.pk ∈ namePerProfile.map Prod.fst := by
      rw [OrderedDict.mem_keys_iff_lookup, OrderedDict.mem_keys_iff_lookup, hnames p hp]
      cases namePerProfile.lookup p.pk with
      | none => simp
      | some value => simp
    simp only [Function.comp_apply, withNames]
    obtain hmem | hmem := Classical.em (p.pk ∈ namePerProfile.map Prod.fst)
    · obtain ⟨value, hvalue⟩ := OrderedDict.mem_keys_iff_lookup.mp hmem
      simp only [hiff.mpr hmem, decide_true, if_true, hmem, hnames p hp, hvalue, Option.map_some]
    · simp only [mt hiff.mp hmem, decide_false, Bool.false_eq_true, if_false, hmem,
        OrderedDict.lookup_eq_none hmem]

theorem run_denormAliasNames (now : Time) (profileIds : List ProfileId) (db : Database) :
    ∃ profiles : Table Profile Profile.pk,
      (denormAliasNames now profileIds).run db = (.ok (), { db with profiles }) ∧
        profiles.rows = db.profiles.rows.map fun p =>
          if p.pk ∈ profileIds then
            { p with
              names := some (otherNames p (uniqueAliasNames p.pk db))
              namesUpdatedAt := some now }
          else p := by
  obtain ⟨profiles, hrun, hrows⟩ := run_writeAliasNames now (readAliasNames profileIds db) db
  refine ⟨profiles, ?_, hrows.trans (List.map_congr_left fun p hp => ?_)⟩
  · simp only [denormAliasNames, run_bind, run_read]
    exact hrun
  · have hread : (readAliasNames profileIds db).lookup p.pk =
        if p.pk ∈ profileIds then some (uniqueAliasNames p.pk db) else none := by
      apply (lookup_selected hp _ fun p => uniqueAliasNames p.pk db).trans
      simp only [decide_eq_true_eq]
    rw [withNames, hread]
    split
    · rename_i h
      obtain hmem | hmem := Classical.em (p.pk ∈ profileIds)
      · rw [if_pos hmem] at h
        cases h
        rw [if_pos hmem]
      · rw [if_neg hmem] at h
        cases h
    · rename_i h
      obtain hmem | hmem := Classical.em (p.pk ∈ profileIds)
      · rw [if_pos hmem] at h
        cases h
      · rw [if_neg hmem]

theorem run_updateSearchVector (now : Time) (profileIds : List ProfileId) (db : Database) :
    ∃ profiles : Table Profile Profile.pk,
      (updateSearchVector now profileIds).run db = (.ok (), { db with profiles }) ∧
        profiles.rows = db.profiles.rows.map fun p =>
          if p.pk ∈ profileIds then
            { p with
              search := some (profileSearchVector p.name p.names)
              searchUpdatedAt := some now }
          else p := by
  simp only [updateSearchVector, run_atomic, run_bind, run_write]
  refine ⟨_, rfl, ?_⟩
  refine (Table.rows_update_update ?_).trans ?_
  · exact fun _ hmem => hmem
  · simp only [decide_eq_true_eq]

end Updates

end ProfileManager

end Swat4Stats
