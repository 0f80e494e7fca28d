import Swat4Stats.Library.Regex

/-!
# The texts that an expression matches

A match of an expression without anchors is decided by the text that it takes: the engine finds a
match at a position exactly if some text that starts there is one that the expression matches.
-/

namespace Swat4Stats

set_option autoImplicit false

namespace Regex

inductive Matches : Regex → Text → Prop
  | eps : Matches eps []
  | set {p : Char → Bool} {c : Char} (hc : p c = true) : Matches (set p) [c]
  | seq {r s : Regex} {a b : Text} (hr : Matches r a) (hs : Matches s b) :
    Matches (seq r s) (a ++ b)
  | altLeft {r s : Regex} {a : Text} (hr : Matches r a) : Matches (alt r s) a
  | altRight {r s : Regex} {a : Text} (hs : Matches s a) : Matches (alt r s) a
  | starNil {r : Regex} : Matches (star r) []
  | starCons {r : Regex} {a b : Text} (hr : Matches r a) (hstar : Matches (star r) b) :
    Matches (star r) (a ++ b)
  | lazyStarNil {r : Regex} : Matches (lazyStar r) []
  | lazyStarCons {r : Regex} {a b : Text} (hr : Matches r a) (hstar : Matches (lazyStar r) b) :
    Matches (lazyStar r) (a ++ b)
  | group {name : String} {r : Regex} {a : Text} (hr : Matches r a) : Matches (group name r) a

def unanchored : Regex → Bool
  | eps => true
  | set _ => true
  | seq r s => r.unanchored && s.unanchored
  | alt r s => r.unanchored && s.unanchored
  | star r => r.unanchored
  | lazyStar r => r.unanchored
  | group _ r => r.unanchored
  | endOfText => false

variable {r : Regex} {st st' : MatchState} {s before part : Text}

theorem exists_of_mem_repeats {step : MatchState → List MatchState} {P : Text → Prop}
    (hnil : P [])
    (hstep : ∀ st, ∀ mid ∈ step st, ∃ a, st.rest = a ++ mid.rest ∧ ∀ b, P b → P (a ++ b))
    (fuel : ℕ) (st : MatchState) :
    ∀ st' ∈ repeats step fuel st, ∃ part, st.rest = part ++ st'.rest ∧ P part := by
  induction fuel generalizing st with
  | zero =>
    intro st' hst'
    rw [List.mem_singleton.mp hst']
    exact ⟨[], rfl, hnil⟩
  | succ fuel ih =>
    intro st' hst'
    obtain hst' | hst' := List.mem_append.mp hst'
    · obtain ⟨mid, hmid, hst'⟩ := List.mem_flatMap.mp hst'
      obtain ⟨a, ha, hcons⟩ := hstep st mid (List.mem_filter.mp hmid).1
      obtain ⟨b, hb, hP⟩ := ih mid st' hst'
      exact ⟨a ++ b, by rw [ha, hb, List.append_assoc], hcons b hP⟩
    · rw [List.mem_singleton.mp hst']
      exact ⟨[], rfl, hnil⟩

theorem exists_of_mem_lazyRepeats {step : MatchState → List MatchState} {P : Text → Prop}
    (hnil : P [])
    (hstep : ∀ st, ∀ mid ∈ step st, ∃ a, st.rest = a ++ mid.rest ∧ ∀ b, P b → P (a ++ b))
    (fuel : ℕ) (st : MatchState) :
    ∀ st' ∈ lazyRepeats step fuel st, ∃ part, st.rest = part ++ st'.rest ∧ P part := by
  induction fuel generalizing st with
  | zero =>
    intro st' hst'
    rw [List.mem_singleton.mp hst']
    exact ⟨[], rfl, hnil⟩
  | succ fuel ih =>
    intro st' hst'
    obtain rfl | hst' := List.mem_cons.mp hst'
    · exact ⟨[], rfl, hnil⟩
    · obtain ⟨mid, hmid, hst'⟩ := List.mem_flatMap.mp hst'
      obtain ⟨a, ha, hcons⟩ := hstep st mid (List.mem_filter.mp hmid).1
      obtain ⟨b, hb, hP⟩ := ih mid st' hst'
      exact ⟨a ++ b, by rw [ha, hb, List.append_assoc], hcons b hP⟩

theorem exists_of_mem_results (hr : r.unanchored = true) (st : MatchState) :
    ∀ st' ∈ r.results st, ∃ part, st.rest = part ++ st'.rest ∧ Matches r part := by
  induction r generalizing st with
  | eps =>
    intro st' hst'
    rw [List.mem_singleton.mp hst']
    exact ⟨[], rfl, .eps⟩
  | set p =>
    intro st' hst'
    rw [results] at hst'
    split at hst'
    · rename_i c rest hrest
      split at hst'
      · rename_i hc
        rw [List.mem_singleton.mp hst']
        exact ⟨[c], hrest, .set hc⟩
      · cases hst'
    · cases hst'
  | seq r s ihr ihs =>
    intro st' hst'
    obtain ⟨hr, hs⟩ := (Bool.and_eq_true _ _).mp hr
    obtain ⟨mid, hmid, hst'⟩ := List.mem_flatMap.mp hst'
    obtain ⟨a, ha, hra⟩ := ihr hr st mid hmid
    obtain ⟨b, hb, hsb⟩ := ihs hs mid st' hst'
    exact ⟨a ++ b, by rw [ha, hb, List.append_assoc], .seq hra hsb⟩
  | alt r s ihr ihs =>
    intro st' hst'
    obtain ⟨hr, hs⟩ := (Bool.and_eq_true _ _).mp hr
    obtain hst' | hst' := List.mem_append.mp hst'
    · obtain ⟨a, ha, hra⟩ := ihr hr st st' hst'
      exact ⟨a, ha, .altLeft hra⟩
    · obtain ⟨a, ha, hsa⟩ := ihs hs st st' hst'
      exact ⟨a, ha, .altRight hsa⟩
  | star r ih =>
    apply exists_of_mem_repeats .starNil
    intro st mid hmid
    obtain ⟨a, ha, hra⟩ := ih hr st mid hmid
    exact ⟨a, ha, fun b hb => .starCons hra hb⟩
  | lazyStar r ih =>
    apply exists_of_mem_lazyRepeats .lazyStarNil
    intro st mid hmid
    obtain ⟨a, ha, hra⟩ := ih hr st mid hmid
    exact ⟨a, ha, fun b hb => .lazyStarCons hra hb⟩
  | group name r ih =>
    intro st' hst'
    obtain ⟨mid, hmid, rfl⟩ := List.mem_map.mp hst'
    obtain ⟨a, ha, hra⟩ := ih hr st mid hmid
    exact ⟨a, ha, .group hra⟩
  | endOfText => cases hr

theorem lazyRepeats_fuel {step : MatchState → List MatchState} {n m : ℕ} {st : MatchState}
    (hn : st.rest.length ≤ n) (hm : st.rest.length ≤ m) :
    lazyRepeats step n st = lazyRepeats step m st := by
  have hzero : ∀ n, ∀ st : MatchState, st.rest.length = 0 → lazyRepeats step n st = [st] := by
    intro n st hst
    cases n with
    | zero => rfl
    | succ n => simp [lazyRepeats, hst]
  induction n generalizing m st with
  | zero =>
    have hst : st.rest.length = 0 := by omega
    rw [hzero 0 st hst, hzero m st hst]
  | succ n ih =>
    cases m with
    | zero =>
      have hst : st.rest.length = 0 := by omega
      rw [hzero (n + 1) st hst, hzero 0 st hst]
    | succ m =>
      simp only [lazyRepeats]
      congr 1
      apply List.flatMap_congr
      intro st' hst'
      have hlt : st'.rest.length < st.rest.length := by
        simpa using (List.mem_filter.mp hst').2
      exact ih (by omega) (by omega)

theorem results_lazyStar (r : Regex) (st : MatchState) :
    (lazyStar r).results st =
      st :: ((r.results st).filter fun st' => st'.rest.length < st.rest.length).flatMap
        (lazyStar r).results := by
  cases hlength : st.rest.length with
  | zero => simp [results, hlength, lazyRepeats]
  | succ n =>
    simp only [results, hlength, lazyRepeats]
    congr 1
    apply List.flatMap_congr
    intro st' hst'
    have hlt : st'.rest.length < n + 1 := by
      simpa using (List.mem_filter.mp hst').2
    exact lazyRepeats_fuel (by omega) le_rfl

/-- A part that is not empty counts as a step of a repetition. -/
theorem mem_filter_shorter {a rest : Text} {groups : List (String × Text)} (ha : a ≠ [])
    {l : List MatchState} (hmem : ⟨rest, groups⟩ ∈ l) :
    ⟨rest, groups⟩ ∈ l.filter fun st' => st'.rest.length < (a ++ rest).length := by
  have hpos := List.length_pos_iff.mpr ha
  refine List.mem_filter.mpr ⟨hmem, decide_eq_true ?_⟩
  change rest.length < (a ++ rest).length
  rw [List.length_append]
  omega

theorem Matches.exists_mem_results (h : Matches r part) (rest : Text)
    (groups : List (String × Text)) :
    ∃ groups', ⟨rest, groups'⟩ ∈ r.results ⟨part ++ rest, groups⟩ := by
  induction h generalizing rest groups with
  | eps => exact ⟨groups, List.mem_singleton_self _⟩
  | set hc =>
    refine ⟨groups, ?_⟩
    simp [results, hc]
  | @seq r s a b _ _ ihr ihs =>
    obtain ⟨mid, hmid⟩ := ihr (b ++ rest) groups
    obtain ⟨groups', hgroups'⟩ := ihs rest mid
    rw [List.append_assoc]
    exact ⟨groups', List.mem_flatMap.mpr ⟨_, hmid, hgroups'⟩⟩
  | altLeft _ ih =>
    obtain ⟨groups', hgroups'⟩ := ih rest groups
    exact ⟨groups', List.mem_append_left _ hgroups'⟩
  | altRight _ ih =>
    obtain ⟨groups', hgroups'⟩ := ih rest groups
    exact ⟨groups', List.mem_append_right _ hgroups'⟩
  | starNil =>
    refine ⟨groups, ?_⟩
    rw [results_star]
    exact List.mem_append_right _ (List.mem_singleton_self _)
  | @starCons r a b _ _ ihr ihstar =>
    obtain rfl | ha := eq_or_ne a []
    · exact ihstar rest groups
    · obtain ⟨mid, hmid⟩ := ihr (b ++ rest) groups
      obtain ⟨groups', hgroups'⟩ := ihstar rest mid
      refine ⟨groups', ?_⟩
      rw [results_star, List.append_assoc]
      exact List.mem_append_left _ (List.mem_flatMap.mpr ⟨_, mem_filter_shorter ha hmid, hgroups'⟩)
  | lazyStarNil =>
    refine ⟨groups, ?_⟩
    rw [results_lazyStar]
    exact List.mem_cons_self
  | @lazyStarCons r a b _ _ ihr ihstar =>
    obtain rfl | ha := eq_or_ne a []
    · exact ihstar rest groups
    · obtain ⟨mid, hmid⟩ := ihr (b ++ rest) groups
      obtain ⟨groups', hgroups'⟩ := ihstar rest mid
      refine ⟨groups', ?_⟩
      rw [results_lazyStar, List.append_assoc]
      exact List.mem_cons_of_mem _
        (List.mem_flatMap.mpr ⟨_, mem_filter_shorter ha hmid, hgroups'⟩)
  | group _ ih =>
    obtain ⟨groups', hgroups'⟩ := ih rest groups
    exact ⟨_, List.mem_map.mpr ⟨_, hgroups', rfl⟩⟩

theorem exists_of_matchAt (hr : r.unanchored = true) (h : r.matchAt s = some st) :
    ∃ part, s = part ++ st.rest ∧ Matches r part :=
  exists_of_mem_results hr _ st (List.mem_of_mem_head? h)

theorem matchAt_eq_none (h : r.matchAt (part ++ s) = none) : ¬ Matches r part := by
  intro hpart
  obtain ⟨groups', hmem⟩ := hpart.exists_mem_results s []
  rw [matchAt, List.head?_eq_none_iff] at h
  rw [h] at hmem
  cases hmem

theorem exists_of_search (hr : r.unanchored = true) (h : r.search s = some (before, st)) :
    ∃ part, s = before ++ part ++ st.rest ∧ Matches r part := by
  induction s generalizing before with
  | nil =>
    obtain ⟨st, hst, heq⟩ := Option.map_eq_some_iff.mp h
    cases heq
    exact exists_of_matchAt hr hst
  | cons c s ih =>
    rw [search] at h
    split at h
    · rename_i hst
      cases h
      exact exists_of_matchAt hr hst
    · obtain ⟨⟨inner, found⟩, hfound, heq⟩ := Option.map_eq_some_iff.mp h
      cases heq
      obtain ⟨part, hs, hpart⟩ := ih hfound
      exact ⟨part, by rw [hs]; rfl, hpart⟩

theorem not_matches_of_search (h : r.search s = none) (hpart : part <:+: s) :
    ¬ Matches r part := by
  obtain ⟨before, after, rfl⟩ := hpart
  induction before with
  | nil =>
    rw [List.nil_append] at h
    cases hs : part ++ after with
    | nil =>
      rw [hs, search, Option.map_eq_none_iff] at h
      rw [← hs] at h
      exact matchAt_eq_none h
    | cons c s =>
      rw [hs, search] at h
      split at h
      · cases h
      · rename_i hnone
        rw [← hs] at hnone
        exact matchAt_eq_none hnone
  | cons c before ih =>
    apply ih
    rw [List.cons_append, List.cons_append, search] at h
    split at h
    · cases h
    · exact Option.map_eq_none_iff.mp h

theorem search_eq_none (hr : r.unanchored = true) (h : ∀ part, part <:+: s → ¬ Matches r part) :
    r.search s = none := by
  cases hsearch : r.search s with
  | none => rfl
  | some found =>
    obtain ⟨part, hs, hpart⟩ := exists_of_search hr hsearch
    exact absurd hpart (h part ⟨found.1, found.2.rest, hs.symm⟩)

theorem lookup_of_mem_group {name : String} {rest : Regex} (hr : r.unanchored = true)
    (hname : name ∉ rest.groupNames) (h : st' ∈ (seq (group name r) rest).results st) :
    ∃ part, st'.groups.lookup name = some part ∧ Matches r part := by
  obtain ⟨mid, hmid, hst'⟩ := List.mem_flatMap.mp h
  obtain ⟨taken, htaken, rfl⟩ := List.mem_map.mp hmid
  obtain ⟨part, hpart, hmatches⟩ := exists_of_mem_results hr st taken htaken
  refine ⟨part, ?_, hmatches⟩
  have hst : st = ⟨part ++ taken.rest, st.groups⟩ := by rw [← hpart]
  rw [lookup_results hname _ st' hst', hst,
    capture_append name part taken.rest st.groups taken.groups, List.lookup_cons,
    beq_self_eq_true]

end Regex

end Swat4Stats
