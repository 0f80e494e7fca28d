import Swat4Stats.StatsManager
import Mathlib.Data.Set.Card

/-!
# Standings

What a ranking is for, in terms of the stored points alone: the qualified profiles of a group are
numbered by their points. A call of `rank` computes these numbers from the rows, and leaves them
behind as positions.
-/

namespace Swat4Stats

set_option autoImplicit false

namespace StatsManager

variable {γ : Type}

/-- `isRanked` of the row with these unique columns. -/
structure Ranked (points : StatKey γ → Option ℚ) (call : RankCall γ) (key : StatKey γ) : Prop where
  stored : points key ≠ none
  year : key.year = call.year
  cats : call.cats key.category = true
  filters : call.filters key.group = true
  qualified : ∀ condition ∈ call.qualify, ∃ group, call.refGroup group key.group = true ∧
    ∃ p ∈ points ⟨call.year, condition.1, key.profile, group⟩, condition.2 ≤ p

/-- The keys of the same category and group with more points. -/
def Ahead (points : StatKey γ → Option ℚ) (call : RankCall γ) (key : StatKey γ) :
    Set (StatKey γ) :=
  {other | Ranked points call other ∧ other.category = key.category ∧ other.group = key.group ∧
    ∃ p ∈ points key, ∃ q ∈ points other, p < q}

noncomputable def standing (points : StatKey γ → Option ℚ) (call : RankCall γ)
    (key : StatKey γ) : ℕ :=
  (Ahead points call key).ncard + 1

/-- No two ranked keys of a category and a group have the same points. -/
def DistinctPoints (points : StatKey γ → Option ℚ) (call : RankCall γ) : Prop :=
  ∀ key other, Ranked points call key → Ranked points call other →
    key.category = other.category → key.group = other.group → points key = points other →
      key = other

/-- A category is numbered if anything is ranked in it. -/
def Numbered (points : StatKey γ → Option ℚ) (call : RankCall γ) (category : StatCategory) :
    Prop :=
  ∃ key, Ranked points call key ∧ key.category = category

open Classical in
/-- The position that a call leaves where `position` was before. -/
noncomputable def placed (points : StatKey γ → Option ℚ) (call : RankCall γ) (key : StatKey γ)
    (position : Option ℕ) : Option ℕ :=
  if Ranked points call key then some (standing points call key)
  else if call.qualify ≠ [] ∧ Numbered points call key.category then none
  else position

section Placed

variable {points : StatKey γ → Option ℚ} {call : RankCall γ} {key : StatKey γ}

theorem placed_of_ranked (h : Ranked points call key) (position : Option ℕ) :
    placed points call key position = some (standing points call key) :=
  if_pos h

theorem placed_placed (points : StatKey γ → Option ℚ) (call : RankCall γ) (key : StatKey γ)
    (position : Option ℕ) :
    placed points call key (placed points call key position) = placed points call key position := by
  simp only [placed]
  split
  · rfl
  · split
    · rfl
    · rfl

theorem placed_of_not_numbered (h : ¬ Numbered points call key.category) (position : Option ℕ) :
    placed points call key position = position := by
  have hranked : ¬ Ranked points call key := fun hranked => h ⟨key, hranked, rfl⟩
  rw [placed, if_neg hranked, if_neg fun hcleared => h hcleared.2]

theorem Ranked.congr {points' : StatKey γ → Option ℚ}
    (hgroup : ∀ group group', call.refGroup group group' = true → group = group')
    (h : Ranked points call key)
    (hpoints : ∀ other, other.group = key.group → points' other = points other) :
    Ranked points' call key where
  stored := (hpoints key rfl).symm ▸ h.stored
  year := h.year
  cats := h.cats
  filters := h.filters
  qualified := by
    intro condition hcondition
    obtain ⟨group, href, p, hp, hle⟩ := h.qualified condition hcondition
    refine ⟨group, href, p, ?_, hle⟩
    rwa [hpoints ⟨call.year, condition.1, key.profile, group⟩ (hgroup _ _ href)]

end Placed

variable [DecidableEq γ]

section Rows

variable {call : RankCall γ} {t : StatTable γ} {row : Stat γ}

theorem points?_of_mem (hrow : row ∈ t.rows) : points? t row.key = some row.points := by
  rw [points?, UniqueTable.get?_of_mem hrow]
  rfl

theorem exists_row_of_points {key : StatKey γ} {p : ℚ} (h : points? t key = some p) :
    ∃ row ∈ t.rows, row.key = key ∧ row.points = p := by
  obtain ⟨row, hget, hpoints⟩ := Option.map_eq_some_iff.mp h
  obtain ⟨hrow, hkey⟩ := UniqueTable.get?_eq_some_iff.mp hget
  exact ⟨row, hrow, hkey, hpoints⟩

theorem isRanked_iff (hrow : row ∈ t.rows) :
    isRanked call t row = true ↔ Ranked (points? t) call row.key := by
  rw [isRanked, decide_eq_true_eq]
  constructor
  · rintro ⟨hyear, hcats, hfilters, hqualified⟩
    refine ⟨by simp [points?_of_mem hrow], hyear, hcats, hfilters, ?_⟩
    intro condition hcondition
    obtain ⟨ref, href, hprofile, hyear, hcategory, hle, hgroup⟩ := hqualified condition hcondition
    refine ⟨ref.group, hgroup, ref.points, ?_, hle⟩
    have hkey : ref.key = ⟨call.year, condition.1, row.key.profile, ref.group⟩ := by
      rw [Stat.key, hprofile, hyear, hcategory]
      rfl
    rw [← hkey, points?_of_mem href]
    rfl
  · rintro ⟨_, hyear, hcats, hfilters, hqualified⟩
    refine ⟨hyear, hcats, hfilters, ?_⟩
    intro condition hcondition
    obtain ⟨group, hgroup, p, hp, hle⟩ := hqualified condition hcondition
    obtain ⟨ref, href, hkey, rfl⟩ := exists_row_of_points hp
    obtain ⟨hyear, hcategory, hprofile, rfl⟩ := StatKey.mk.inj hkey
    exact ⟨ref, href, hprofile, hyear, hcategory, hle, hgroup⟩

theorem ahead_eq (hdistinct : DistinctPoints (points? t) call) (hrow : row ∈ t.rows)
    (hranked : Ranked (points? t) call row.key) :
    Ahead (points? t) call row.key =
      {key | key ∈ ((t.rows.filter (isRanked call t)).filter (isBefore · row)).map Stat.key} := by
  ext key
  simp only [Ahead, Set.mem_ofPred_eq, List.mem_map, List.mem_filter, isBefore, decide_eq_true_eq]
  constructor
  · rintro ⟨hother, hcategory, hgroup, p, hp, q, hq, hlt⟩
    obtain ⟨other, hmem, rfl, rfl⟩ := exists_row_of_points hq
    obtain rfl : row.points = p := Option.some_inj.mp ((points?_of_mem hrow).symm.trans hp)
    exact ⟨other, ⟨⟨hmem, (isRanked_iff hmem).mpr hother⟩, hcategory, hgroup, .inl hlt⟩, rfl⟩
  · rintro ⟨other, ⟨⟨hmem, hother⟩, hcategory, hgroup, hbefore⟩, rfl⟩
    have hother := (isRanked_iff hmem).mp hother
    refine ⟨hother, hcategory, hgroup, _, points?_of_mem hrow, _, points?_of_mem hmem, ?_⟩
    obtain hlt | ⟨heq, hpk⟩ := hbefore
    · exact hlt
    · have hkey := hdistinct other.key row.key hother hranked hcategory hgroup (by
        rw [points?_of_mem hmem, points?_of_mem hrow, heq])
      rw [t.eq_of_key_eq hmem hrow hkey] at hpk
      omega

theorem rowNumber_eq_standing (hdistinct : DistinctPoints (points? t) call) (hrow : row ∈ t.rows)
    (hranked : Ranked (points? t) call row.key) :
    rowNumber (t.rows.filter (isRanked call t)) row = standing (points? t) call row.key := by
  have hnodup : (((t.rows.filter (isRanked call t)).filter (isBefore · row)).map Stat.key).Nodup :=
    t.nodupKeys.sublist ((List.filter_sublist.trans List.filter_sublist).map Stat.key)
  rw [rowNumber, standing, ahead_eq hdistinct hrow hranked, List.countP_eq_length_filter,
    ← List.length_map, ← List.toFinset_card_of_nodup hnodup, ← Set.ncard_coe_finset,
    List.coe_toFinset]

end Rows

/-- The positions of a category as the rows of the table are to have them. -/
structure Standings (points : StatKey γ → Option ℚ) (call : RankCall γ) (category : StatCategory)
    (positions : List (ℕ × ℕ)) (t : StatTable γ) : Prop where
  numbered : Numbered points call category
  ranked : ∀ row ∈ t.rows, row.category = category → Ranked points call row.key →
    row.pk ∈ positions.map Prod.fst ∧ positions.lookup row.pk = some (standing points call row.key)
  others : ∀ row ∈ t.rows, row.pk ∈ positions.map Prod.fst →
    row.category = category ∧ Ranked points call row.key

section Positions

variable {call : RankCall γ} {t : StatTable γ} {category : StatCategory}
  {positions : List (ℕ × ℕ)}

theorem mem_positionsPerCat_fst :
    category ∈ (positionsPerCat call t).map Prod.fst ↔ Numbered (points? t) call category := by
  simp only [positionsPerCat, List.map_map, List.mem_map, List.mem_dedup, List.mem_filter,
    Function.comp_apply, exists_eq_right, Numbered]
  constructor
  · rintro ⟨row, ⟨hrow, hranked⟩, rfl⟩
    exact ⟨row.key, (isRanked_iff hrow).mp hranked, rfl⟩
  · rintro ⟨key, hranked, rfl⟩
    obtain ⟨p, hp⟩ := Option.ne_none_iff_exists'.mp hranked.stored
    obtain ⟨row, hrow, rfl, _⟩ := exists_row_of_points hp
    exact ⟨row, ⟨hrow, (isRanked_iff hrow).mpr hranked⟩, rfl⟩

theorem lookup_map_of_inj {α : Type} {rows : List α} {pk number : α → ℕ} {x : α}
    (hinj : ∀ y ∈ rows, pk y = pk x → y = x) (hx : x ∈ rows) :
    (rows.map fun y => (pk y, number y)).lookup (pk x) = some (number x) := by
  induction rows with
  | nil => cases hx
  | cons y rows ih =>
    rw [List.map_cons, List.lookup_cons]
    split
    · rename_i hpk
      rw [hinj y List.mem_cons_self (beq_iff_eq.mp hpk).symm]
    · rename_i hpk
      apply ih (fun z hz => hinj z (List.mem_cons_of_mem _ hz))
      obtain rfl | hx := List.mem_cons.mp hx
      · simp at hpk
      · exact hx

theorem ranked_of_mem_positions (h : (category, positions) ∈ positionsPerCat call t)
    {row : Stat γ} (hrow : row ∈ t.rows) (hpk : row.pk ∈ positions.map Prod.fst) :
    row.category = category ∧ Ranked (points? t) call row.key := by
  obtain ⟨_, _, hentry⟩ := List.mem_map.mp h
  cases hentry
  rw [List.map_map] at hpk
  obtain ⟨other, hother, hpk⟩ := List.mem_map.mp hpk
  obtain ⟨hother, hcategory⟩ := List.mem_filter.mp hother
  obtain ⟨hother, hranked⟩ := List.mem_filter.mp hother
  obtain rfl := t.toTable.eq_of_key_eq hother hrow hpk
  exact ⟨of_decide_eq_true hcategory, (isRanked_iff hother).mp hranked⟩

theorem standings_of_mem_positionsPerCat (hdistinct : DistinctPoints (points? t) call)
    (h : (category, positions) ∈ positionsPerCat call t) :
    Standings (points? t) call category positions t := by
  have hnumbered := mem_positionsPerCat_fst.mp (List.mem_map_of_mem (f := Prod.fst) h)
  refine ⟨hnumbered, ?_, fun row hrow hpk => ranked_of_mem_positions h hrow hpk⟩
  obtain ⟨_, _, hentry⟩ := List.mem_map.mp h
  cases hentry
  rintro row hrow rfl hranked
  have hmem : row ∈ (t.rows.filter (isRanked call t)).filter fun other =>
      decide (other.category = row.category) := by
    simp only [List.mem_filter, decide_true, and_true]
    exact ⟨hrow, (isRanked_iff hrow).mpr hranked⟩
  constructor
  · rw [List.map_map]
    exact List.mem_map_of_mem (f := Stat.pk) hmem
  · rw [← rowNumber_eq_standing hdistinct hrow hranked]
    refine lookup_map_of_inj ?_ hmem
    intro other hother hpk
    have hother := List.mem_of_mem_filter (List.mem_of_mem_filter hother)
    exact t.toTable.eq_of_key_eq hother hrow hpk

/-- Storing the positions of a category touches no other row, and no other column. -/
theorem Standings.updatePositions {points : StatKey γ → Option ℚ} {category' : StatCategory}
    {positions' : List (ℕ × ℕ)} (h : Standings points call category positions t) :
    Standings points call category positions
      (StatsManager.updatePositions call category' positions' t) := by
  have hrows : ∀ row ∈ (StatsManager.updatePositions call category' positions' t).rows,
      ∃ old ∈ t.rows, row.pk = old.pk ∧ row.key = old.key := by
    intro row hrow
    have hget := UniqueTable.get?_of_mem hrow
    rw [get?_updatePositions] at hget
    obtain ⟨old, hold, rfl⟩ := Option.map_eq_some_iff.mp hget
    exact ⟨old, (UniqueTable.get?_eq_some_iff.mp hold).1, rfl, rfl⟩
  refine ⟨h.numbered, ?_, ?_⟩
  · intro row hrow hcategory hranked
    obtain ⟨old, hold, hpk, hkey⟩ := hrows row hrow
    rw [hpk, hkey]
    have hsame : row.category = old.category := congrArg StatKey.category hkey
    exact h.ranked old hold (hsame.symm.trans hcategory) (hkey ▸ hranked)
  · intro row hrow hmem
    obtain ⟨old, hold, hpk, hkey⟩ := hrows row hrow
    have hsame : row.category = old.category := congrArg StatKey.category hkey
    rw [hsame, hkey]
    exact h.others old hold (hpk ▸ hmem)

theorem position?_updatePositions_of_standings {points : StatKey γ → Option ℚ}
    (h : Standings points call category positions t) (hpoints : points? t = points)
    (key : StatKey γ) :
    position? (StatsManager.updatePositions call category positions t) key =
      if key.year = call.year ∧ key.category = category then
        placed points call key (position? t key)
      else position? t key := by
  rw [position?_updatePositions, position?]
  cases hget : t.get? key with
  | none =>
    have hranked : ¬ Ranked points call key := by
      intro hranked
      apply hranked.stored
      rw [← hpoints, points?, hget]
      rfl
    simp only [Option.bind_none, placed, if_neg hranked, ite_self]
  | some row =>
    obtain ⟨hrow, rfl⟩ := UniqueTable.get?_eq_some_iff.mp hget
    simp only [Option.bind_some, repositioned]
    obtain hmem | hmem := Classical.em (row.pk ∈ positions.map Prod.fst)
    · obtain ⟨hcategory, hranked⟩ := h.others row hrow hmem
      rw [if_pos hmem, (h.ranked row hrow hcategory hranked).2,
        if_pos ⟨hranked.year, hcategory⟩, placed_of_ranked hranked]
    · rw [if_neg hmem]
      split
      · rename_i hcleared
        obtain ⟨hqualify, hyear, hcategory⟩ := hcleared
        have hranked : ¬ Ranked points call row.key := fun hranked =>
          hmem (h.ranked row hrow hcategory hranked).1
        have hnumbered : Numbered points call row.key.category := by
          obtain ⟨other, hother, hsame⟩ := h.numbered
          exact ⟨other, hother, hsame.trans hcategory.symm⟩
        rw [if_pos ⟨hyear, hcategory⟩, placed, if_neg hranked, if_pos ⟨hqualify, hnumbered⟩]
      · rename_i hkept
        split
        · rename_i hkey
          obtain ⟨hyear, hcategory⟩ := hkey
          have hranked : ¬ Ranked points call row.key := fun hranked =>
            hmem (h.ranked row hrow hcategory hranked).1
          rw [placed, if_neg hranked, if_neg fun hcleared =>
            hkept ⟨hcleared.1, hyear, hcategory⟩]
        · rfl

end Positions

end StatsManager

end Swat4Stats
