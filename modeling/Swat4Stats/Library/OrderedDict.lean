import Mathlib.Data.List.Induction
import Mathlib.Data.List.Nodup
import Mathlib.Tactic.Common

/-!
# Insertion-ordered dictionaries

A dictionary that iterates in the order of insertion, as a list of pairs: writing to a key that
exists keeps its place, a new key goes to the end, and a key that is deleted and written again
goes to the end too.
-/

namespace Swat4Stats

set_option autoImplicit false

universe u v

abbrev OrderedDict (κ : Type u) (ν : Type v) := List (κ × ν)

namespace OrderedDict

variable {κ : Type u} {ν : Type v}

def keys (d : OrderedDict κ ν) : List κ := d.map Prod.fst

def values (d : OrderedDict κ ν) : List ν := d.map Prod.snd

variable [DecidableEq κ]

def get? : OrderedDict κ ν → κ → Option ν
  | [], _ => none
  | (k, v) :: d, key => if k = key then some v else get? d key

def set : OrderedDict κ ν → κ → ν → OrderedDict κ ν
  | [], key, value => [(key, value)]
  | (k, v) :: d, key, value => if k = key then (k, value) :: d else (k, v) :: set d key value

def erase : OrderedDict κ ν → κ → OrderedDict κ ν
  | [], _ => []
  | (k, v) :: d, key => if k = key then d else (k, v) :: erase d key

/-- `dict.update`. -/
def update (d entries : OrderedDict κ ν) : OrderedDict κ ν :=
  entries.foldl (fun d entry => set d entry.1 entry.2) d

/-- `defaultdict(list)`: the values of each key, in the order of the items. -/
def collect (items : List (κ × ν)) : OrderedDict κ (List ν) :=
  items.foldl (fun d item => set d item.1 ((get? d item.1).getD [] ++ [item.2])) []

variable {d e : OrderedDict κ ν} {key : κ} {value w : ν}

theorem mem_keys_iff_lookup : key ∈ d.map Prod.fst ↔ ∃ value, List.lookup key d = some value := by
  rw [← Option.isSome_iff_exists, List.lookup_isSome_iff]
  constructor
  · intro hmem
    obtain ⟨entry, hentry, rfl⟩ := List.mem_map.mp hmem
    exact ⟨entry, hentry, beq_self_eq_true _⟩
  · rintro ⟨entry, hentry, hkey⟩
    rw [eq_of_beq hkey]
    exact List.mem_map_of_mem hentry

theorem lookup_eq_none (h : key ∉ d.map Prod.fst) : List.lookup key d = none := by
  rw [Option.eq_none_iff_forall_ne_some]
  exact fun value hvalue => h (mem_keys_iff_lookup.mpr ⟨value, hvalue⟩)

theorem mem_of_lookup (h : List.lookup key d = some value) : (key, value) ∈ d := by
  obtain ⟨before, after, rfl, _⟩ := List.lookup_eq_some_iff.mp h
  exact List.mem_append_right _ List.mem_cons_self

theorem lookup_eq_some (h : (key, value) ∈ d) (hunique : ∀ w, (key, w) ∈ d → w = value) :
    List.lookup key d = some value := by
  obtain ⟨w, hw⟩ := mem_keys_iff_lookup.mp (List.mem_map_of_mem (f := Prod.fst) h)
  rw [hw, hunique w (mem_of_lookup hw)]

theorem get?_eq_none_iff : get? d key = none ↔ key ∉ keys d := by
  induction d with
  | nil => simp [get?, keys]
  | cons entry d ih =>
    obtain ⟨k, v⟩ := entry
    obtain rfl | hk := eq_or_ne k key
    · simp [get?, keys]
    · have ih : get? d key = none ↔ key ∉ List.map Prod.fst d := ih
      simp [get?, keys, hk, hk.symm, ih]

theorem get?_append_of_not_mem (h : key ∉ keys d) : get? (d ++ e) key = get? e key := by
  induction d with
  | nil => rfl
  | cons entry d ih =>
    obtain ⟨k, v⟩ := entry
    have hk : k ≠ key := fun hk => h (by simp [keys, hk])
    have hd : key ∉ keys d := fun hd => h (List.mem_cons_of_mem _ hd)
    simpa [get?, hk] using ih hd

theorem get?_concat_self (h : key ∉ keys d) : get? (d ++ [(key, value)]) key = some value := by
  rw [get?_append_of_not_mem h]
  simp [get?]

theorem get?_append : get? (d ++ e) key = (get? d key).or (get? e key) := by
  induction d with
  | nil => rfl
  | cons entry d ih =>
    obtain ⟨k, v⟩ := entry
    obtain rfl | hk := eq_or_ne k key
    · simp [get?]
    · simpa [get?, hk] using ih

theorem get?_of_mem (hnodup : (keys d).Nodup) (h : (key, value) ∈ d) :
    get? d key = some value := by
  induction d with
  | nil => cases h
  | cons entry d ih =>
    obtain ⟨k, v⟩ := entry
    obtain ⟨hfresh, hnodup⟩ := List.nodup_cons.mp hnodup
    obtain heq | hmem := List.mem_cons.mp h
    · cases heq
      simp [get?]
    · have hk : k ≠ key := by
        rintro rfl
        exact hfresh (List.mem_map.mpr ⟨_, hmem, rfl⟩)
      simpa [get?, hk] using ih hnodup hmem

theorem get?_eq_lookup [BEq κ] [LawfulBEq κ] (d : OrderedDict κ ν) (key : κ) :
    get? d key = List.lookup key d := by
  induction d with
  | nil => rfl
  | cons entry d ih =>
    obtain ⟨k, v⟩ := entry
    rw [get?, List.lookup_cons, ih]
    obtain rfl | hk := eq_or_ne k key
    · simp
    · have hbeq : (key == k) = false := beq_eq_false_iff_ne.mpr hk.symm
      rw [if_neg hk, hbeq]

theorem mem_of_get? (h : get? d key = some value) : (key, value) ∈ d := by
  induction d with
  | nil => cases h
  | cons entry d ih =>
    obtain ⟨k, v⟩ := entry
    obtain rfl | hk := eq_or_ne k key
    · obtain rfl : v = value := by simpa [get?] using h
      exact List.mem_cons_self
    · exact List.mem_cons_of_mem _ (ih (by simpa [get?, hk] using h))

theorem set_append_of_not_mem (h : key ∉ keys d) :
    set (d ++ e) key value = d ++ set e key value := by
  induction d with
  | nil => rfl
  | cons entry d ih =>
    obtain ⟨k, v⟩ := entry
    have hk : k ≠ key := fun hk => h (by simp [keys, hk])
    have hd : key ∉ keys d := fun hd => h (List.mem_cons_of_mem _ hd)
    simpa [set, hk] using ih hd

theorem set_of_not_mem (h : key ∉ keys d) : set d key value = d ++ [(key, value)] := by
  have hset : set (d ++ []) key value = d ++ set [] key value := set_append_of_not_mem h
  rwa [List.append_nil] at hset

theorem set_concat_self (h : key ∉ keys d) :
    set (d ++ [(key, w)]) key value = d ++ [(key, value)] := by
  rw [set_append_of_not_mem h]
  simp [set]

theorem set_eq_self (h : get? d key = some value) : set d key value = d := by
  induction d with
  | nil => cases h
  | cons entry d ih =>
    obtain ⟨k, v⟩ := entry
    obtain rfl | hk := eq_or_ne k key
    · obtain rfl : v = value := by simpa [get?] using h
      simp [set]
    · have hd : get? d key = some value := by simpa [get?, hk] using h
      simpa [set, hk] using ih hd

theorem get?_set {k : κ} :
    get? (set d k value) key = if k = key then some value else get? d key := by
  induction d with
  | nil => simp [set, get?]
  | cons entry d ih =>
    obtain ⟨l, v⟩ := entry
    obtain rfl | hl := eq_or_ne l k
    · obtain rfl | hkey := eq_or_ne l key
      · simp [set, get?]
      · simp [set, get?, hkey]
    · obtain rfl | hkey := eq_or_ne l key
      · simp [set, get?, hl, hl.symm]
      · simp [set, get?, hl, hkey, ih]

/-- Entries with new keys are appended. -/
theorem update_of_nodup {entries : OrderedDict κ ν} (h : (keys (d ++ entries)).Nodup) :
    update d entries = d ++ entries := by
  induction entries generalizing d with
  | nil => exact (List.append_nil d).symm
  | cons entry entries ih =>
    obtain ⟨k, v⟩ := entry
    have happend : d ++ (k, v) :: entries = d ++ [(k, v)] ++ entries := by simp
    have hk : k ∉ keys d := by
      intro hk
      rw [keys, List.map_append, List.nodup_append] at h
      exact h.2.2 k hk k (by simp) rfl
    rw [happend] at h ⊢
    rw [← ih h, update, update, List.foldl_cons, set_of_not_mem hk]

/-- What an update makes of one key depends on the old value and the new ones of that key. -/
theorem get?_update_congr {d' entries entries' : OrderedDict κ ν} (hd : get? d key = get? d' key)
    (hentries : (entries.filter fun entry => entry.1 = key) =
      entries'.filter fun entry => entry.1 = key) :
    get? (update d entries) key = get? (update d' entries') key := by
  have hfilter : ∀ (entries d d' : OrderedDict κ ν), get? d key = get? d' key →
      get? (update d entries) key =
        get? (update d' (entries.filter fun entry => entry.1 = key)) key := by
    intro entries
    induction entries with
    | nil => exact fun _ _ h => h
    | cons entry entries ih =>
      intro d d' h
      obtain hentry | hentry := eq_or_ne entry.1 key
      · rw [List.filter_cons_of_pos (by simpa using hentry)]
        apply ih (set d entry.1 entry.2) (set d' entry.1 entry.2)
        rw [get?_set, get?_set, h]
      · rw [List.filter_cons_of_neg (by simpa using hentry)]
        apply ih (set d entry.1 entry.2) d'
        rw [get?_set, if_neg hentry, h]
  rw [hfilter entries d d' hd, hentries, ← hfilter entries' d' d' rfl]

theorem keys_set (d : OrderedDict κ ν) (key : κ) (value : ν) :
    keys (set d key value) = if key ∈ keys d then keys d else keys d ++ [key] := by
  induction d with
  | nil => simp [set, keys]
  | cons entry d ih =>
    obtain ⟨k, v⟩ := entry
    obtain rfl | hk := eq_or_ne k key
    · simp [set, keys]
    · have ih : List.map Prod.fst (set d key value) =
          if key ∈ List.map Prod.fst d then List.map Prod.fst d
          else List.map Prod.fst d ++ [key] := ih
      simp only [keys, set, if_neg hk, List.map_cons, ih, List.mem_cons, hk.symm, false_or]
      split
      · rfl
      · rfl

theorem mem_keys_set {k : κ} : k ∈ keys (set d key value) ↔ k = key ∨ k ∈ keys d := by
  rw [keys_set]
  split
  · rename_i hkey
    constructor
    · exact Or.inr
    · rintro (rfl | hmem)
      · exact hkey
      · exact hmem
  · rw [List.mem_append, List.mem_singleton]
    exact or_comm

theorem nodup_keys_set (h : (keys d).Nodup) : (keys (set d key value)).Nodup := by
  rw [keys_set]
  split
  · exact h
  · rename_i hkey
    rw [List.nodup_append]
    refine ⟨h, List.nodup_singleton _, ?_⟩
    rintro k hk l hl rfl
    exact hkey (List.mem_singleton.mp hl ▸ hk)

theorem nodup_keys_update {entries : OrderedDict κ ν} (h : (keys d).Nodup) :
    (keys (update d entries)).Nodup := by
  induction entries generalizing d with
  | nil => exact h
  | cons entry entries ih => exact ih (nodup_keys_set h)

theorem keys_erase (d : OrderedDict κ ν) (key : κ) : keys (erase d key) = (keys d).erase key := by
  induction d with
  | nil => rfl
  | cons entry d ih =>
    obtain ⟨k, v⟩ := entry
    have ih : List.map Prod.fst (erase d key) = (List.map Prod.fst d).erase key := ih
    obtain rfl | hk := eq_or_ne k key
    · simp [erase, keys]
    · simp [erase, keys, hk, ih]

theorem nodup_keys_erase (h : (keys d).Nodup) : (keys (erase d key)).Nodup := by
  rw [keys_erase]
  exact h.erase key

theorem get?_erase_of_ne {k : κ} (h : k ≠ key) : get? (erase d k) key = get? d key := by
  induction d with
  | nil => rfl
  | cons entry d ih =>
    obtain ⟨l, v⟩ := entry
    obtain rfl | hl := eq_or_ne l k
    · simp [erase, get?, h]
    · obtain rfl | hkey := eq_or_ne l key
      · simp [erase, get?, hl]
      · simp [erase, get?, hl, hkey, ih]

theorem get?_erase_self (h : (keys d).Nodup) : get? (erase d key) key = none := by
  rw [get?_eq_none_iff, keys_erase]
  exact h.not_mem_erase

theorem set_set (d : OrderedDict κ ν) (key : κ) (value w : ν) :
    set (set d key value) key w = set d key w := by
  induction d with
  | nil => simp [set]
  | cons entry d ih =>
    obtain ⟨k, v⟩ := entry
    obtain rfl | hk := eq_or_ne k key
    · simp [set]
    · simp [set, hk, ih]

omit [DecidableEq κ] in
theorem flatMap_of_nodup {α : Type*} {g : κ × ν → List α} (hnodup : (keys d).Nodup)
    (hmem : (key, value) ∈ d) (hother : ∀ entry ∈ d, entry.1 ≠ key → g entry = []) :
    d.flatMap g = g (key, value) := by
  induction d with
  | nil => cases hmem
  | cons entry d ih =>
    obtain ⟨hfresh, hnodup⟩ := List.nodup_cons.mp hnodup
    have hkeys : ∀ e ∈ d, e.1 ≠ entry.1 := by
      rintro e he heq
      exact hfresh (heq ▸ List.mem_map_of_mem he)
    obtain rfl | hmem := List.mem_cons.mp hmem
    · have hnil : d.flatMap g = [] := by
        rw [List.flatMap_eq_nil_iff]
        exact fun e he => hother e (List.mem_cons_of_mem _ he) (hkeys e he)
      rw [List.flatMap_cons, hnil, List.append_nil]
    · have hentry : g entry = [] := hother entry List.mem_cons_self (hkeys _ hmem).symm
      rw [List.flatMap_cons, hentry, List.nil_append]
      exact ih hnodup hmem fun e he => hother e (List.mem_cons_of_mem _ he)

section Map

universe w

variable {μ : Type w} (f : ν → μ)

def mapValues (d : OrderedDict κ ν) : OrderedDict κ μ := d.map fun entry => (entry.1, f entry.2)

omit [DecidableEq κ] in
theorem keys_mapValues (d : OrderedDict κ ν) : keys (mapValues f d) = keys d := by
  simp [keys, mapValues]

theorem get?_mapValues (d : OrderedDict κ ν) (key : κ) :
    get? (mapValues f d) key = (get? d key).map f := by
  induction d with
  | nil => rfl
  | cons entry d ih =>
    obtain ⟨k, v⟩ := entry
    obtain rfl | hk := eq_or_ne k key
    · simp [mapValues, get?]
    · simpa [mapValues, get?, hk] using ih

theorem set_mapValues (d : OrderedDict κ ν) (key : κ) (value : ν) :
    set (mapValues f d) key (f value) = mapValues f (set d key value) := by
  induction d with
  | nil => rfl
  | cons entry d ih =>
    obtain ⟨k, v⟩ := entry
    obtain rfl | hk := eq_or_ne k key
    · simp [mapValues, set]
    · simpa [mapValues, set, hk] using ih

end Map

section Collect

variable {items : List (κ × ν)}

theorem collect_concat (items : List (κ × ν)) (item : κ × ν) :
    collect (items ++ [item]) =
      set (collect items) item.1 ((get? (collect items) item.1).getD [] ++ [item.2]) := by
  simp [collect]

theorem nodup_keys_collect (items : List (κ × ν)) : (keys (collect items)).Nodup := by
  induction items using List.reverseRecOn with
  | nil => exact List.nodup_nil
  | append_singleton items item ih =>
    rw [collect_concat]
    exact nodup_keys_set ih

theorem get?_collect (items : List (κ × ν)) (key : κ) :
    get? (collect items) key =
      if key ∈ items.map Prod.fst then
        some ((items.filter fun item => item.1 = key).map Prod.snd)
      else none := by
  induction items using List.reverseRecOn with
  | nil => rfl
  | append_singleton items item ih =>
    obtain ⟨k, v⟩ := item
    rw [collect_concat, get?_set]
    obtain rfl | hk := eq_or_ne k key
    · rw [if_pos rfl, ih]
      simp only [List.map_append, List.mem_append, List.map_cons, List.map_nil,
        List.mem_singleton, or_true, if_true, List.filter_append]
      split
      · simp
      · rename_i hkey
        have hnil : (items.filter fun item => decide (item.1 = k)) = [] := by
          rw [List.filter_eq_nil_iff]
          intro item hitem hk
          exact hkey (List.mem_map.mpr ⟨item, hitem, of_decide_eq_true hk⟩)
        simp [hnil]
    · rw [if_neg hk, ih]
      simp only [List.map_append, List.mem_append, List.map_cons, List.map_nil,
        List.mem_singleton, hk.symm, or_false, List.filter_append]
      simp [hk]

/-- The keys come in the order of their first items. -/
theorem keys_collect [BEq κ] [LawfulBEq κ] (items : List (κ × ν)) :
    keys (collect items) = (items.map Prod.fst).eraseDups := by
  induction items using List.reverseRecOn with
  | nil => rfl
  | append_singleton items item ih =>
    rw [collect_concat, keys_set, ih, List.map_append, List.eraseDups_append]
    obtain hmem | hmem := Decidable.em (item.1 ∈ items.map Prod.fst)
    · rw [if_pos (List.mem_eraseDups.mpr hmem)]
      simp [List.removeAll, hmem]
    · rw [if_neg fun h => hmem (List.mem_eraseDups.mp h)]
      simp [List.removeAll, hmem, List.eraseDups_cons]

theorem snd_of_mem_collect {items : List (κ × ν)} {entry : κ × List ν}
    (hentry : entry ∈ collect items) :
    entry.2 = (items.filter fun item => item.1 = entry.1).map Prod.snd := by
  have hfound := get?_of_mem (nodup_keys_collect items) hentry
  rw [get?_collect] at hfound
  split at hfound
  · exact (Option.some_inj.mp hfound).symm
  · cases hfound

theorem key_of_mem_collect {items : List (κ × ν)} {entry : κ × List ν}
    (hentry : entry ∈ collect items) : entry.1 ∈ items.map Prod.fst := by
  have hfound := get?_of_mem (nodup_keys_collect items) hentry
  rw [get?_collect] at hfound
  split at hfound
  · rename_i hkey
    exact hkey
  · cases hfound

end Collect

@[simp] theorem get?_cons_self : get? ((key, value) :: d) key = some value := by
  simp [get?]

@[simp] theorem erase_cons_self : erase ((key, value) :: d) key = d := by
  simp [erase]

section Fill

variable {entries : OrderedDict κ ν}

theorem get?_update_of_not_mem (h : key ∉ keys entries) :
    get? (update d entries) key = get? d key := by
  induction entries generalizing d with
  | nil => rfl
  | cons entry entries ih =>
    obtain ⟨hne, hrest⟩ := not_or.mp (mt List.mem_cons.mpr h)
    show get? (update (set d entry.1 entry.2) entries) key = _
    rw [ih hrest, get?_set, if_neg (Ne.symm hne)]

theorem get?_update_of_mem (hnodup : (keys entries).Nodup) (h : (key, value) ∈ entries) :
    get? (update d entries) key = some value := by
  induction entries generalizing d with
  | nil => exact absurd h List.not_mem_nil
  | cons entry entries ih =>
    obtain ⟨hhead, hrest⟩ := List.nodup_cons.mp hnodup
    show get? (update (set d entry.1 entry.2) entries) key = _
    cases List.mem_cons.mp h with
    | inl heq =>
      rw [← heq] at hhead ⊢
      rw [get?_update_of_not_mem hhead, get?_set, if_pos rfl]
    | inr hmem => exact ih hrest hmem

theorem of_get?_update (h : get? (update d entries) key = some value) :
    (key, value) ∈ entries ∨ get? d key = some value := by
  induction entries generalizing d with
  | nil => exact .inr h
  | cons entry entries ih =>
    obtain hmem | hset := ih (d := set d entry.1 entry.2) h
    · exact .inl (List.mem_cons_of_mem _ hmem)
    · rw [get?_set] at hset
      split at hset
      · rename_i hkey
        obtain rfl := Option.some.inj hset
        exact .inl (hkey ▸ List.mem_cons_self)
      · exact .inr hset

/-- Entries whose keys are all there keep the order. -/
theorem keys_update_of_subset (h : ∀ k ∈ keys entries, k ∈ keys d) :
    keys (update d entries) = keys d := by
  induction entries generalizing d with
  | nil => rfl
  | cons entry entries ih =>
    have hkeys : keys (set d entry.1 entry.2) = keys d := by
      rw [keys_set, if_pos (h entry.1 List.mem_cons_self)]
    show keys (update (set d entry.1 entry.2) entries) = _
    rw [ih (fun k hk => hkeys ▸ h k (List.mem_cons_of_mem _ hk)), hkeys]

theorem eq_map_of_get? {f : κ → ν} (hnodup : (keys d).Nodup)
    (h : ∀ k ∈ keys d, get? d k = some (f k)) : d = (keys d).map fun k => (k, f k) := by
  rw [keys, List.map_map]
  refine (List.map_id d).symm.trans (List.map_congr_left fun entry hentry => ?_)
  have hget := h entry.1 (List.mem_map_of_mem hentry)
  rw [get?_of_mem hnodup hentry] at hget
  exact Prod.ext rfl (Option.some.inj hget)

omit [DecidableEq κ] in
theorem keys_map (ks : List κ) (f : κ → ν) : keys (ks.map fun k => (k, f k)) = ks := by
  rw [keys, List.map_map]
  exact List.map_id ks

/-- Every key written once, in whatever order: the dictionary keeps its own. -/
theorem update_of_perm {f : κ → ν} (hnodup : (keys d).Nodup)
    (h : entries.Perm ((keys d).map fun k => (k, f k))) :
    update d entries = (keys d).map fun k => (k, f k) := by
  have hkeys : (keys entries).Perm (keys d) := by
    rw [← keys_map (keys d) f]
    exact h.map Prod.fst
  have hsame : keys (update d entries) = keys d :=
    keys_update_of_subset fun k hk => hkeys.mem_iff.mp hk
  have heq := eq_map_of_get? (f := f) (hsame ▸ hnodup) fun k hk =>
    get?_update_of_mem (hkeys.nodup_iff.mpr hnodup)
      (h.mem_iff.mpr (List.mem_map_of_mem (hsame ▸ hk)))
  rwa [hsame] at heq

end Fill

end OrderedDict

end Swat4Stats
