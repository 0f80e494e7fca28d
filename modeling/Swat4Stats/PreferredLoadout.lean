import Swat4Stats.Preferences
import Mathlib.Data.List.MinMax

/-!
# The preferred loadout

`fetch_preferred_loadout_for_profile` orders the loadouts of the recent rows by their uses outside
the VIP's role. A loadout that only the VIP has worn takes part with no uses, and is preferred when
there is no other.
-/

namespace Swat4Stats

set_option autoImplicit false

open PlayerQuerySet

namespace ProfileManager

def rowsSince (profile : ProfileId) (leastGameId : GameId) (db : Database) : List PlayerRow :=
  (forProfile db profile (all db)).filter fun row => leastGameId ≤ row.game.pk

/-- The rows since the earliest of the recent games. Without such a game there are none; an id of
zero counts as none. -/
def preferredWindow (profile : ProfileId) (db : Database) : List PlayerRow :=
  match fetchFirstPreferredGameIdForProfile profile db with
  | none => []
  | some leastGameId => if leastGameId = 0 then [] else rowsSince profile leastGameId db

/-- The call without `least_game_id`. -/
def fetchPreferredLoadout (pick : ℕ) (profile : ProfileId) (db : Database) : Option LoadoutId :=
  match fetchFirstPreferredGameIdForProfile profile db with
  | none => none
  | some leastGameId =>
    if leastGameId = 0 then none
    else fetchPreferredLoadoutForProfile pick profile leastGameId db

def nonVipUses (rows : List PlayerRow) (loadout : LoadoutId) : ℕ :=
  rows.countP fun row => row.player.loadout = loadout ∧ row.player.vip = false

structure IsPreferred (rows : List PlayerRow) (loadout : LoadoutId) : Prop where
  used : ∃ row ∈ rows, row.player.loadout = loadout ∧ row.player.vip = false
  most : ∀ other, nonVipUses rows other ≤ nonVipUses rows loadout

section Field

variable {β : Type} [DecidableEq β] {field : PlayerRow → Option β} {counted : PlayerRow → Bool}
  {pick : ℕ} {profile : ProfileId} {leastGameId : GameId} {db : Database}

theorem mem_of_fetchPreferredField {value : β}
    (h : fetchPreferredFieldForProfile field counted pick profile leastGameId db = some value) :
    ∃ row ∈ rowsSince profile leastGameId db, field row = some value := by
  rw [fetchPreferredFieldForProfile, Option.join_eq_some_iff] at h
  exact List.mem_map.mp (List.mem_dedup.mp (List.mem_of_mem_filter (Table.anyRow_mem h)))

theorem most_of_fetchPreferredField {value : β}
    (h : fetchPreferredFieldForProfile field counted pick profile leastGameId db = some value) :
    ∀ row ∈ rowsSince profile leastGameId db,
      (rowsSince profile leastGameId db).countP
          (fun other => field other = field row ∧ counted other) ≤
        (rowsSince profile leastGameId db).countP
          fun other => field other = some value ∧ counted other := by
  intro row hrow
  rw [fetchPreferredFieldForProfile, Option.join_eq_some_iff] at h
  have hvalue := (List.mem_filter.mp (Table.anyRow_mem h)).2
  rw [decide_eq_true_eq] at hvalue
  exact hvalue _ (List.mem_dedup.mpr (List.mem_map_of_mem hrow))

theorem exists_fetchPreferredField (hfield : ∀ row, (field row).isSome = true)
    (hrows : rowsSince profile leastGameId db ≠ []) :
    ∃ value, fetchPreferredFieldForProfile field counted pick profile leastGameId db =
      some value := by
  rw [fetchPreferredFieldForProfile]
  simp only
  set values := ((rowsSince profile leastGameId db).map field).dedup with hvalues
  set num := fun value => (rowsSince profile leastGameId db).countP fun row =>
    field row = value ∧ counted row
  have hmost : values.filter (fun value => ∀ other ∈ values, num other ≤ num value) ≠ [] := by
    obtain ⟨row, hrow⟩ := List.exists_mem_of_ne_nil _ hrows
    have hmem : field row ∈ values := List.mem_dedup.mpr (List.mem_map_of_mem hrow)
    cases hmax : values.argmax num with
    | none =>
      rw [List.argmax_eq_none] at hmax
      rw [hmax] at hmem
      cases hmem
    | some value =>
      apply List.ne_nil_of_mem (a := value)
      rw [List.mem_filter, decide_eq_true_eq]
      exact ⟨List.argmax_mem hmax, fun other hother => List.le_of_mem_argmax hother hmax⟩
  cases hpick : Table.anyRow pick (values.filter fun value =>
      ∀ other ∈ values, num other ≤ num value) with
  | none => exact absurd (Table.anyRow_eq_none_iff.mp hpick) hmost
  | some value =>
    obtain ⟨row, _, rfl⟩ := List.mem_map.mp
      (List.mem_dedup.mp (List.mem_of_mem_filter (Table.anyRow_mem hpick)))
    obtain ⟨value, hvalue⟩ := Option.isSome_iff_exists.mp (hfield row)
    exact ⟨value, Option.join_eq_some_iff.mpr (hpick.trans (congrArg some hvalue))⟩

end Field

variable {pick : ℕ} {profile : ProfileId} {leastGameId : GameId} {db : Database}

theorem countP_loadout (rows : List PlayerRow) (loadout : LoadoutId) :
    (rows.countP fun row => some row.player.loadout = some loadout ∧ !row.player.vip) =
      nonVipUses rows loadout := by
  apply List.countP_congr
  intro row _
  simp

theorem nonVipUses_pos {rows : List PlayerRow} {loadout : LoadoutId} :
    0 < nonVipUses rows loadout ↔
      ∃ row ∈ rows, row.player.loadout = loadout ∧ row.player.vip = false := by
  simp [nonVipUses, List.countP_pos_iff]

theorem nonVipUses_le_of_fetch {loadout : LoadoutId}
    (h : fetchPreferredLoadoutForProfile pick profile leastGameId db = some loadout)
    (other : LoadoutId) :
    nonVipUses (rowsSince profile leastGameId db) other ≤
      nonVipUses (rowsSince profile leastGameId db) loadout := by
  obtain hnone | hused := Nat.eq_zero_or_pos (nonVipUses (rowsSince profile leastGameId db) other)
  · omega
  · obtain ⟨row, hrow, rfl, _⟩ := nonVipUses_pos.mp hused
    have hmost := most_of_fetchPreferredField h row hrow
    rwa [countP_loadout, countP_loadout] at hmost

/-- With a row outside the VIP's role there is a loadout that has a use to its name. -/
theorem isPreferred_of_fetch {loadout : LoadoutId}
    (hnonVip : ∃ row ∈ rowsSince profile leastGameId db, row.player.vip = false)
    (h : fetchPreferredLoadoutForProfile pick profile leastGameId db = some loadout) :
    IsPreferred (rowsSince profile leastGameId db) loadout := by
  obtain ⟨row, hrow, hvip⟩ := hnonVip
  have hmost := nonVipUses_le_of_fetch h
  constructor
  · have hused : 0 < nonVipUses (rowsSince profile leastGameId db) row.player.loadout :=
      nonVipUses_pos.mpr ⟨row, hrow, rfl, hvip⟩
    exact nonVipUses_pos.mp (hused.trans_le (hmost row.player.loadout))
  · exact hmost

theorem fetchPreferredLoadout_iff (pick : ℕ) (profile : ProfileId) (db : Database) :
    (∀ loadout, fetchPreferredLoadout pick profile db = some loadout →
      IsPreferred (preferredWindow profile db) loadout) ↔
      (preferredWindow profile db = [] ∨
        ∃ row ∈ preferredWindow profile db, row.player.vip = false) := by
  cases hleast : fetchFirstPreferredGameIdForProfile profile db with
  | none => simp [fetchPreferredLoadout, preferredWindow, hleast]
  | some leastGameId =>
    simp only [fetchPreferredLoadout, preferredWindow, hleast]
    obtain hzero | hleast := Classical.em (leastGameId = 0)
    · simp [hzero]
    rw [if_neg hleast, if_neg hleast]
    constructor
    · intro hpreferred
      obtain hempty | hrows := Classical.em (rowsSince profile leastGameId db = [])
      · exact Or.inl hempty
      · right
        have hexists : ∃ loadout,
            fetchPreferredLoadoutForProfile pick profile leastGameId db = some loadout :=
          exists_fetchPreferredField (fun _ => rfl) hrows
        obtain ⟨loadout, hfetch⟩ := hexists
        obtain ⟨row, hrow, _, hvip⟩ := (hpreferred loadout hfetch).used
        exact ⟨row, hrow, hvip⟩
    · rintro (hempty | hnonVip) loadout hfetch
      · obtain ⟨row, hrow, _⟩ := mem_of_fetchPreferredField hfetch
        rw [hempty] at hrow
        cases hrow
      · exact isPreferred_of_fetch hnonVip hfetch

def onlyVip : Database :=
  { Database.empty with
    games := ⟨[{
      pk := 1, server := 1, tag := none, dateFinished := 0, gametype := .vipEscort,
      gametypeLegacy := 1, map := 1, mapname := 0, outcome := none, outcomeLegacy := 0,
      time := 600, playerNum := 16, scoreSwat := 0, scoreSus := 0, victSwat := 0, victSus := 0,
      rdBombsDefused := 0, rdBombsTotal := 0, coopScore := 0, coopRank := none }], by decide⟩
    aliases := ⟨[⟨1, "Vip".toList, 1, none, 0, 0⟩], by decide⟩
    players := ⟨[{ pk := 1, game := 1, aliasId := 1, loadout := 7, ip := 0, vip := true }],
      by decide⟩ }

theorem onlyVip_preferred :
    ¬ ∀ loadout, fetchPreferredLoadout 0 1 onlyVip = some loadout →
      IsPreferred (preferredWindow 1 onlyVip) loadout := by
  intro hpreferred
  have hused := (hpreferred 7 (by decide +kernel)).used
  revert hused
  decide +kernel

end ProfileManager

end Swat4Stats
