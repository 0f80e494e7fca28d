import Swat4Stats.JuliaQueryString

/-!
# Items of nested dictionaries

What `set_complex_key_item` does to a nested dict, by what is found at each chain of keys: one
equation for the chain that is written, and one for every other.
-/

namespace Swat4Stats

set_option autoImplicit false

namespace Value

def isDict : Value → Bool
  | .dict _ => true
  | _ => false

def entries : Value → Dict
  | .dict items => items
  | _ => []

/-- A value without the items of a dict. -/
def outline : Value → Value
  | .dict _ => .dict []
  | value => value

variable {value : Value}

theorem outline_of_not_isDict (h : value.isDict = false) : value.outline = value := by
  cases value with
  | str s => rfl
  | list items => rfl
  | dict items => cases h

theorem entries_of_not_isDict (h : value.isDict = false) : value.entries = [] := by
  cases value with
  | str s => rfl
  | list items => rfl
  | dict items => cases h

theorem outline_eq_dict_iff : value.outline = .dict [] ↔ ∃ items, value = .dict items := by
  cases value with
  | str s => simp [outline]
  | list items => simp [outline]
  | dict items => simp [outline]

theorem eq_of_outline {w : Value} (hvalue : value.isDict = false) (h : value.outline = w.outline) :
    w = value := by
  rw [outline_of_not_isDict hvalue] at h
  cases w with
  | str s => exact h.symm
  | list items => exact h.symm
  | dict items =>
    rw [h] at hvalue
    cases hvalue

end Value

namespace JuliaQueryString

/-- What `d[k₁][k₂]…` gives. -/
def lookup : Dict → List Text → Option Value
  | d, [] => some (.dict d)
  | d, key :: keys =>
    match OrderedDict.get? d key with
    | some (.dict items) => lookup items keys
    | found => if keys = [] then found else none

/-- What a write makes of what is stored at its last key. -/
def stored : Option Value → Value → Value
  | none, value => value
  | some (.dict items), _ => .dict items
  | some (.list items), value => .list (items ++ arrayValues value)
  | some (.str s), value => .list [.str s, value]

def view (d : Dict) (path : List Text) : Option Value := (lookup d path).map Value.outline

variable {d items : Dict} {key : Text} {path other rest : List Text} {value : Value}
  {found? : Option Value}

theorem lookup_singleton (d : Dict) (key : Text) : lookup d [key] = OrderedDict.get? d key := by
  cases hget : OrderedDict.get? d key with
  | none => simp [lookup, hget]
  | some found =>
    cases found with
    | str s => simp [lookup, hget]
    | list items => simp [lookup, hget]
    | dict items => simp [lookup, hget]

theorem lookup_nil (hpath : path ≠ []) : lookup [] path = none := by
  obtain ⟨key, keys, rfl⟩ := List.exists_cons_of_ne_nil hpath
  simp [lookup, OrderedDict.get?]

/-- Past its first key, a lookup goes on in the dict that a write would descend into. -/
theorem lookup_cons (hpath : path ≠ []) :
    lookup d (key :: path) = lookup (nestedDict d key) path := by
  cases hget : OrderedDict.get? d key with
  | none => simp [lookup, nestedDict, hget, hpath, lookup_nil hpath]
  | some found =>
    cases found with
    | str s => simp [lookup, nestedDict, hget, hpath, lookup_nil hpath]
    | list items => simp [lookup, nestedDict, hget, hpath, lookup_nil hpath]
    | dict items => simp [lookup, nestedDict, hget]

theorem lookup_cons_cons (d : Dict) (key next : Text) (path : List Text) :
    lookup d (key :: next :: path) = lookup (nestedDict d key) (next :: path) :=
  lookup_cons (List.cons_ne_nil next path)

theorem lookup_cons_congr {e : Dict} (h : OrderedDict.get? d key = OrderedDict.get? e key) :
    lookup d (key :: path) = lookup e (key :: path) := by
  simp only [lookup, h]

theorem lookup_append (d : Dict) (path : List Text) (hrest : rest ≠ []) :
    lookup d (path ++ rest) = (lookup d path).bind fun found => lookup found.entries rest := by
  induction path generalizing d with
  | nil => rfl
  | cons key path ih =>
    cases path with
    | nil =>
      rw [List.cons_append, List.nil_append, lookup_cons hrest, lookup_singleton]
      cases hget : OrderedDict.get? d key with
      | none => simp [nestedDict, hget, lookup_nil hrest]
      | some found =>
        cases found with
        | str s => simp [nestedDict, hget, Value.entries]
        | list items => simp [nestedDict, hget, Value.entries]
        | dict items => simp [nestedDict, hget, Value.entries]
    | cons next path =>
      rw [lookup_cons_cons, ← ih, List.cons_append, List.cons_append, lookup_cons_cons]

theorem setItem_eq (d : Dict) (key : Text) (value : Value) :
    setItem d key value = OrderedDict.set d key (stored (OrderedDict.get? d key) value) := by
  cases hget : OrderedDict.get? d key with
  | none => simp only [setItem, hget, stored]
  | some found =>
    cases found with
    | str s => simp only [setItem, hget, stored]
    | list items =>
      cases value with
      | str s => simp only [setItem, hget, stored, arrayValues]
      | list values => simp only [setItem, hget, stored, arrayValues]
      | dict entries => simp only [setItem, hget, stored, arrayValues]
    | dict items => simp only [setItem, hget, stored, OrderedDict.set_eq_self hget]

theorem lookup_setComplexKeyItem_self (d : Dict) (value : Value) (hpath : path ≠ []) :
    lookup (setComplexKeyItem d path value) path = some (stored (lookup d path) value) := by
  induction path generalizing d with
  | nil => exact absurd rfl hpath
  | cons key path ih =>
    cases path with
    | nil =>
      rw [setComplexKeyItem, setItem_eq, lookup_singleton, lookup_singleton, OrderedDict.get?_set,
        if_pos rfl]
    | cons next path =>
      have hset : OrderedDict.get? (setComplexKeyItem d (key :: next :: path) value) key =
          some (.dict (setComplexKeyItem (nestedDict d key) (next :: path) value)) := by
        rw [setComplexKeyItem, OrderedDict.get?_set, if_pos rfl]
      have hnested :
          lookup (setComplexKeyItem d (key :: next :: path) value) (key :: next :: path) =
          lookup (setComplexKeyItem (nestedDict d key) (next :: path) value) (next :: path) := by
        simp only [lookup, hset]
      rw [hnested, ih _ (List.cons_ne_nil next path), lookup_cons_cons]

theorem setComplexKeyItem_of_dict (h : lookup d path = some (.dict items)) (hpath : path ≠ []) :
    setComplexKeyItem d path value = d := by
  induction path generalizing d with
  | nil => exact absurd rfl hpath
  | cons key path ih =>
    cases path with
    | nil =>
      rw [lookup_singleton] at h
      rw [setComplexKeyItem, setItem_eq, h]
      exact OrderedDict.set_eq_self h
    | cons next path =>
      rw [lookup_cons_cons] at h
      have hdict : OrderedDict.get? d key = some (.dict (nestedDict d key)) := by
        cases hget : OrderedDict.get? d key with
        | none => simp [nestedDict, hget, lookup, OrderedDict.get?] at h
        | some found =>
          cases found with
          | str s => simp [nestedDict, hget, lookup, OrderedDict.get?] at h
          | list items => simp [nestedDict, hget, lookup, OrderedDict.get?] at h
          | dict items => simp only [nestedDict, hget]
      rw [setComplexKeyItem, ih h (List.cons_ne_nil next path)]
      exact OrderedDict.set_eq_self hdict

/-- The write leaves every chain of keys alone that is not along its own. -/
theorem lookup_setComplexKeyItem_of_apart (d : Dict) (value : Value) (hother : ¬ other <+: path)
    (hpath : ¬ path <+: other) :
    lookup (setComplexKeyItem d path value) other = lookup d other := by
  induction path generalizing d other with
  | nil => exact absurd List.nil_prefix hpath
  | cons key path ih =>
    cases other with
    | nil => exact absurd List.nil_prefix hother
    | cons k other =>
      obtain rfl | hk := eq_or_ne k key
      · have hother : ¬ other <+: path := fun h => hother (List.cons_prefix_cons.mpr ⟨rfl, h⟩)
        have hpath : ¬ path <+: other := fun h => hpath (List.cons_prefix_cons.mpr ⟨rfl, h⟩)
        have hne : other ≠ [] := by
          rintro rfl
          exact hother List.nil_prefix
        cases path with
        | nil => exact absurd List.nil_prefix hpath
        | cons next path =>
          have hset : OrderedDict.get? (setComplexKeyItem d (k :: next :: path) value) k =
              some (.dict (setComplexKeyItem (nestedDict d k) (next :: path) value)) := by
            rw [setComplexKeyItem, OrderedDict.get?_set, if_pos rfl]
          have hnested : lookup (setComplexKeyItem d (k :: next :: path) value) (k :: other) =
              lookup (setComplexKeyItem (nestedDict d k) (next :: path) value) other := by
            simp only [lookup, hset]
          rw [hnested, ih _ hother hpath, lookup_cons hne]
      · apply lookup_cons_congr
        cases path with
        | nil => rw [setComplexKeyItem, setItem_eq, OrderedDict.get?_set, if_neg hk.symm]
        | cons next path => rw [setComplexKeyItem, OrderedDict.get?_set, if_neg hk.symm]

theorem lookup_setComplexKeyItem_initial (d : Dict) (value : Value) (hother : other <+: path)
    (hne : other ≠ path) :
    ∃ items, lookup (setComplexKeyItem d path value) other = some (.dict items) := by
  induction path generalizing d other with
  | nil => exact absurd (List.prefix_nil.mp hother) hne
  | cons key path ih =>
    cases other with
    | nil => exact ⟨_, rfl⟩
    | cons k other =>
      obtain ⟨rfl, htail⟩ := List.cons_prefix_cons.mp hother
      have hneTail : other ≠ path := fun h => hne (h ▸ rfl)
      cases path with
      | nil => exact absurd (List.prefix_nil.mp htail) hneTail
      | cons next path =>
        obtain ⟨items, hitems⟩ := ih (nestedDict d k) htail hneTail
        refine ⟨items, ?_⟩
        have hset : OrderedDict.get? (setComplexKeyItem d (k :: next :: path) value) k =
            some (.dict (setComplexKeyItem (nestedDict d k) (next :: path) value)) := by
          rw [setComplexKeyItem, OrderedDict.get?_set, if_pos rfl]
        rw [← hitems]
        simp only [lookup, hset]

/-- The write is local: off its chain of keys nothing changes, and at the chain it keeps what is
there before the new value. -/
theorem setComplexKeyItem_local (d : Dict) {path : List Text} (value : Value) (hpath : path ≠ []) :
    (∀ other, ¬ other <+: path → ¬ path <+: other →
      lookup (setComplexKeyItem d path value) other = lookup d other) ∧
    (lookup d path = none → lookup (setComplexKeyItem d path value) path = some value) ∧
    (∀ items, lookup d path = some (.dict items) → setComplexKeyItem d path value = d) ∧
    (∀ items, lookup d path = some (.list items) →
      lookup (setComplexKeyItem d path value) path = some (.list (items ++ arrayValues value))) ∧
    ∀ s, lookup d path = some (.str s) →
      lookup (setComplexKeyItem d path value) path = some (.list [.str s, value]) := by
  have hself := lookup_setComplexKeyItem_self d value hpath
  refine ⟨?_, ?_, ?_, ?_, ?_⟩
  · exact fun other => lookup_setComplexKeyItem_of_apart d value
  · intro hnone
    rw [hself, hnone, stored]
  · exact fun items hitems => setComplexKeyItem_of_dict hitems hpath
  · intro items hitems
    rw [hself, hitems, stored]
  · intro s hs
    rw [hself, hs, stored]

theorem setComplexKeyItem_local_nested :
    lookup (setComplexKeyItem [(['a'], .dict [(['b'], .str ['1'])])] [['a'], ['b']] (.str ['2']))
      [['a'], ['b']] = some (.list [.str ['1'], .str ['2']]) :=
  (setComplexKeyItem_local [(['a'], .dict [(['b'], .str ['1'])])] (.str ['2'])
    (List.cons_ne_nil ['a'] [['b']])).2.2.2.2 ['1'] rfl

theorem isDict_stored (hfound : ∀ w ∈ found?, w.isDict = false) (hvalue : value.isDict = false) :
    (stored found? value).isDict = false := by
  cases found? with
  | none => exact hvalue
  | some w =>
    cases w with
    | str s => rfl
    | list items => rfl
    | dict items => cases hfound _ rfl

theorem outline_stored (hvalue : value.isDict = false) :
    (stored found? value).outline = stored (found?.map Value.outline) value := by
  cases found? with
  | none => exact Value.outline_of_not_isDict hvalue
  | some w =>
    cases w with
    | str s => rfl
    | list items => rfl
    | dict items => rfl

theorem view_eq_dict_iff : view d path = some (.dict []) ↔
    ∃ items, lookup d path = some (.dict items) := by
  rw [view, Option.map_eq_some_iff]
  constructor
  · rintro ⟨w, hw, hdict⟩
    obtain ⟨items, rfl⟩ := Value.outline_eq_dict_iff.mp hdict
    exact ⟨items, hw⟩
  · rintro ⟨items, hitems⟩
    exact ⟨_, hitems, rfl⟩

theorem view_nil (d : Dict) : view d [] = some (.dict []) := rfl

theorem view_setComplexKeyItem_self (d : Dict) (hpath : path ≠ []) (hvalue : value.isDict = false) :
    view (setComplexKeyItem d path value) path = some (stored (view d path) value) := by
  rw [view, lookup_setComplexKeyItem_self d value hpath, Option.map_some, outline_stored hvalue]
  rfl

theorem isDict_of_view (hdict : view d path ≠ some (.dict [])) :
    ∀ w ∈ lookup d path, w.isDict = false := by
  intro w hw
  cases w with
  | str s => rfl
  | list items => rfl
  | dict items => exact absurd (view_eq_dict_iff.mpr ⟨items, hw⟩) hdict

theorem view_append_of_not_dict (hrest : rest ≠ []) (hdict : view d path ≠ some (.dict [])) :
    view d (path ++ rest) = none := by
  rw [view, lookup_append d path hrest]
  cases hlookup : lookup d path with
  | none => rfl
  | some w =>
    rw [Option.bind_some, Value.entries_of_not_isDict (isDict_of_view hdict w hlookup),
      lookup_nil hrest, Option.map_none]

theorem view_setComplexKeyItem_append (d : Dict) (hpath : path ≠ []) (hvalue : value.isDict = false)
    (hrest : rest ≠ []) (hdict : view d path ≠ some (.dict [])) :
    view (setComplexKeyItem d path value) (path ++ rest) = none := by
  have hleaf : (stored (lookup d path) value).isDict = false :=
    isDict_stored (isDict_of_view hdict) hvalue
  rw [view, lookup_append _ _ hrest, lookup_setComplexKeyItem_self d value hpath,
    Option.bind_some, Value.entries_of_not_isDict hleaf, lookup_nil hrest, Option.map_none]

/-- What the writes to one chain of keys add up to. -/
def collected (values : List Value) : Option Value :=
  values.foldl (fun found value => some (stored found value)) none

def valuesAt (writes : List (List Text × Value)) (path : List Text) : List Value :=
  (writes.filter fun write => write.1 = path).map Prod.snd

/-- What a sequence of writes leaves to see at a chain of keys: a longer chain through it wins. -/
def outcome (writes : List (List Text × Value)) (path : List Text) : Option Value :=
  if path = [] ∨ ∃ write ∈ writes, path <+: write.1 ∧ path ≠ write.1 then some (.dict [])
  else collected (valuesAt writes path)

def Shows (d : Dict) (writes : List (List Text × Value)) : Prop :=
  ∀ path, view d path = outcome writes path

variable {writes writes' : List (List Text × Value)}

theorem collected_append (values : List Value) (value : Value) :
    collected (values ++ [value]) = some (stored (collected values) value) := by
  rw [collected, List.foldl_append]
  rfl

theorem foldl_stored_list (items values : List Value) :
    values.foldl (fun found value => some (stored found value)) (some (.list items)) =
      some (.list (items ++ values.flatMap arrayValues)) := by
  induction values generalizing items with
  | nil => simp
  | cons value values ih => rw [List.foldl_cons, stored, ih, List.flatMap_cons, List.append_assoc]

theorem collected_str_cons (s : Text) (value : Value) (values : List Value) :
    collected (.str s :: value :: values) =
      some (.list (.str s :: value :: values.flatMap arrayValues)) :=
  foldl_stored_list [.str s, value] values

theorem collected_list_cons (items values : List Value) :
    collected (.list items :: values) = some (.list (items ++ values.flatMap arrayValues)) :=
  foldl_stored_list items values

theorem isDict_collected {values : List Value} (h : ∀ value ∈ values, value.isDict = false) :
    ∀ w ∈ collected values, w.isDict = false := by
  induction values using List.reverseRecOn with
  | nil =>
    intro w hw
    cases hw
  | append_singleton values value ih =>
    intro w hw
    rw [collected_append] at hw
    obtain rfl := Option.some.inj hw
    exact isDict_stored (ih fun v hv => h v (List.mem_append_left _ hv)) (h value (by simp))

theorem mem_valuesAt : value ∈ valuesAt writes path ↔ (path, value) ∈ writes := by
  rw [valuesAt, List.mem_map]
  constructor
  · rintro ⟨⟨p, v⟩, hfilter, rfl⟩
    obtain ⟨hmem, hpath⟩ := List.mem_filter.mp hfilter
    obtain rfl : p = path := by simpa using hpath
    exact hmem
  · exact fun hmem => ⟨(path, value), List.mem_filter.mpr ⟨hmem, by simp⟩, rfl⟩

theorem valuesAt_append (writes writes' : List (List Text × Value)) (path : List Text) :
    valuesAt (writes ++ writes') path = valuesAt writes path ++ valuesAt writes' path := by
  rw [valuesAt, List.filter_append, List.map_append]
  rfl

theorem valuesAt_flatMap {α : Type} (l : List α) (f : α → List (List Text × Value))
    (path : List Text) : valuesAt (l.flatMap f) path = l.flatMap fun x => valuesAt (f x) path := by
  induction l with
  | nil => rfl
  | cons x l ih => rw [List.flatMap_cons, valuesAt_append, ih, List.flatMap_cons]

theorem valuesAt_eq_nil (h : ∀ write ∈ writes, write.1 ≠ path) : valuesAt writes path = [] := by
  rw [List.eq_nil_iff_forall_not_mem]
  exact fun value hvalue => h (path, value) (mem_valuesAt.mp hvalue) rfl

theorem length_valuesAt (h : (writes.map Prod.fst).Nodup)
    (path : List Text) : (valuesAt writes path).length ≤ 1 := by
  have hcount : (valuesAt writes path).length = (writes.map Prod.fst).count path := by
    rw [valuesAt, List.length_map, List.count, List.countP_map, List.countP_eq_length_filter]
    refine congrArg List.length (List.filter_congr ?_)
    intro write _
    rw [Function.comp_apply, Bool.eq_iff_iff, decide_eq_true_iff, beq_iff_eq]
  rw [hcount]
  exact List.nodup_iff_count_le_one.mp h path

theorem valuesAt_of_mem (h : (writes.map Prod.fst).Nodup)
    (hwrite : (path, value) ∈ writes) : valuesAt writes path = [value] := by
  have hlength := length_valuesAt h path
  have hmem := mem_valuesAt.mpr hwrite
  cases hat : valuesAt writes path with
  | nil =>
    rw [hat] at hmem
    cases hmem
  | cons w values =>
    rw [hat, List.length_cons] at hlength
    obtain rfl : values = [] := List.length_eq_zero_iff.mp (by omega)
    rw [hat, List.mem_singleton] at hmem
    rw [hmem]

/-- The order matters only among the writes to one chain of keys. -/
theorem outcome_congr (h : ∀ path, valuesAt writes path = valuesAt writes' path)
    (path : List Text) :
    outcome writes path = outcome writes' path := by
  have hpaths : ∀ {ws ws' : List (List Text × Value)},
      (∀ path, valuesAt ws path = valuesAt ws' path) →
      (∃ write ∈ ws, path <+: write.1 ∧ path ≠ write.1) →
      ∃ write ∈ ws', path <+: write.1 ∧ path ≠ write.1 := by
    rintro ws ws' h ⟨⟨p, v⟩, hwrite, hlonger⟩
    exact ⟨(p, v), mem_valuesAt.mp (h p ▸ mem_valuesAt.mpr hwrite), hlonger⟩
  have hiff : (∃ write ∈ writes, path <+: write.1 ∧ path ≠ write.1) ↔
      ∃ write ∈ writes', path <+: write.1 ∧ path ≠ write.1 :=
    ⟨hpaths h, hpaths fun path => (h path).symm⟩
  simp only [outcome, hiff, h]

theorem outcome_eq_dict_iff (hleaves : ∀ write ∈ writes, write.2.isDict = false) :
    outcome writes path = some (.dict []) ↔
      path = [] ∨ ∃ write ∈ writes, path <+: write.1 ∧ path ≠ write.1 := by
  rw [outcome]
  split
  · rename_i h
    exact iff_of_true rfl h
  · rename_i h
    refine iff_of_false ?_ h
    intro hdict
    have hvalues : ∀ value ∈ valuesAt writes path, value.isDict = false :=
      fun value hvalue => hleaves _ (mem_valuesAt.mp hvalue)
    have hleaf := isDict_collected hvalues _ hdict
    cases hleaf

/-- Only the writes whose chains of keys go through this one matter. -/
theorem outcome_eq_of_filter
    (h : (writes.filter fun write => path <+: write.1) =
      writes'.filter fun write => path <+: write.1) :
    outcome writes path = outcome writes' path := by
  have hfilter : ∀ ws : List (List Text × Value),
      outcome ws path = outcome (ws.filter fun write => path <+: write.1) path := by
    intro ws
    have hiff : (∃ write ∈ ws.filter fun write => path <+: write.1,
        path <+: write.1 ∧ path ≠ write.1) ↔ ∃ write ∈ ws, path <+: write.1 ∧ path ≠ write.1 := by
      constructor
      · rintro ⟨write, hwrite, hlonger⟩
        exact ⟨write, (List.mem_filter.mp hwrite).1, hlonger⟩
      · rintro ⟨write, hwrite, hlonger⟩
        exact ⟨write, List.mem_filter.mpr ⟨hwrite, decide_eq_true hlonger.1⟩, hlonger⟩
    have hvalues : valuesAt (ws.filter fun write => path <+: write.1) path = valuesAt ws path := by
      rw [valuesAt, List.filter_filter]
      refine congrArg (List.map Prod.snd) (List.filter_congr ?_)
      intro write _
      obtain rfl | hne := eq_or_ne write.1 path
      · simp
      · simp [hne]
    simp only [outcome, hiff, hvalues]
  rw [hfilter writes, h, ← hfilter writes']

theorem outcome_concat_of_apart (h : ¬ path <+: other) (value : Value) :
    outcome (writes ++ [(other, value)]) path = outcome writes path := by
  apply outcome_eq_of_filter
  rw [List.filter_append, List.filter_cons_of_neg (by simpa using h), List.filter_nil,
    List.append_nil]

theorem shows_setComplexKeyItem (hshows : Shows d writes) (hpath : path ≠ [])
    (hvalue : value.isDict = false) (hleaves : ∀ write ∈ writes, write.2.isDict = false) :
    Shows (setComplexKeyItem d path value) (writes ++ [(path, value)]) := by
  have hdict : view d path = some (.dict []) → setComplexKeyItem d path value = d := by
    intro hdict
    obtain ⟨items, hitems⟩ := view_eq_dict_iff.mp hdict
    exact setComplexKeyItem_of_dict hitems hpath
  intro other
  obtain hother | hother := Decidable.em (other <+: path)
  · obtain rfl | hne := eq_or_ne other path
    · obtain hview | hview := Classical.em (view d other = some (.dict []))
      · -- a dict stays, for the longer chain is among the writes before
        have hall : ∀ write ∈ writes ++ [(other, value)], write.2.isDict = false :=
          List.forall_mem_append.mpr ⟨hleaves, List.forall_mem_singleton.mpr hvalue⟩
        rw [hdict hview, hview, eq_comm, outcome_eq_dict_iff hall]
        rw [hshows, outcome_eq_dict_iff hleaves] at hview
        obtain hnil | ⟨write, hwrite, hlonger⟩ := hview
        · exact .inl hnil
        · exact .inr ⟨write, List.mem_append_left _ hwrite, hlonger⟩
      · rw [view_setComplexKeyItem_self d hpath hvalue]
        rw [hshows, outcome_eq_dict_iff hleaves] at hview
        have hnone : ¬ (other = [] ∨ ∃ write ∈ writes ++ [(other, value)],
            other <+: write.1 ∧ other ≠ write.1) := by
          rintro (hnil | ⟨write, hwrite, hlonger⟩)
          · exact hpath hnil
          · obtain hwrite | hwrite := List.mem_append.mp hwrite
            · exact hview (.inr ⟨write, hwrite, hlonger⟩)
            · obtain rfl := List.mem_singleton.mp hwrite
              exact hlonger.2 rfl
        rw [hshows, outcome, if_neg hview, outcome, if_neg hnone, valuesAt_append,
          ← collected_append]
        simp [valuesAt]
    · obtain ⟨items, hitems⟩ := lookup_setComplexKeyItem_initial d value hother hne
      rw [view_eq_dict_iff.mpr ⟨items, hitems⟩, outcome,
        if_pos (.inr ⟨(path, value), by simp, hother, hne⟩)]
  · rw [outcome_concat_of_apart hother, ← hshows]
    obtain ⟨rest, rfl⟩ | hpathOther := Decidable.em (path <+: other)
    · have hrest : rest ≠ [] := by
        rintro rfl
        exact hother (by rw [List.append_nil])
      obtain hview | hview := Classical.em (view d path = some (.dict []))
      · rw [hdict hview]
      · rw [view_setComplexKeyItem_append d hpath hvalue hrest hview,
          view_append_of_not_dict hrest hview]
    · rw [view, lookup_setComplexKeyItem_of_apart d value hother hpathOther, view]

def writeAll (d : Dict) (writes : List (List Text × Value)) : Dict :=
  writes.foldl (fun d write => setComplexKeyItem d write.1 write.2) d

theorem writeAll_concat (d : Dict) (writes : List (List Text × Value)) (write : List Text × Value) :
    writeAll d (writes ++ [write]) = setComplexKeyItem (writeAll d writes) write.1 write.2 := by
  rw [writeAll, List.foldl_append]
  rfl

theorem shows_writeAll (hshows : Shows d writes)
    (hleaves : ∀ write ∈ writes, write.2.isDict = false)
    (hnew : ∀ write ∈ writes', write.1 ≠ [] ∧ write.2.isDict = false) :
    Shows (writeAll d writes') (writes ++ writes') := by
  induction writes' generalizing d writes with
  | nil => rwa [List.append_nil]
  | cons write writes' ih =>
    obtain ⟨⟨hpath, hvalue⟩, hnew⟩ := List.forall_mem_cons.mp hnew
    have hstep := shows_setComplexKeyItem hshows hpath hvalue hleaves
    have hall : ∀ w ∈ writes ++ [write], w.2.isDict = false :=
      List.forall_mem_append.mpr ⟨hleaves, List.forall_mem_singleton.mpr hvalue⟩
    have hrest := ih hstep hall hnew
    rwa [← List.append_cons] at hrest

theorem nodup_keys_setComplexKeyItem (h : (OrderedDict.keys d).Nodup) (path : List Text)
    (value : Value) : (OrderedDict.keys (setComplexKeyItem d path value)).Nodup := by
  cases path with
  | nil => exact h
  | cons key path =>
    cases path with
    | nil =>
      rw [setComplexKeyItem, setItem_eq]
      exact OrderedDict.nodup_keys_set h
    | cons next path => exact OrderedDict.nodup_keys_set h

theorem nodup_keys_writeAll (h : (OrderedDict.keys d).Nodup)
    (writes : List (List Text × Value)) : (OrderedDict.keys (writeAll d writes)).Nodup := by
  induction writes generalizing d with
  | nil => exact h
  | cons write writes ih => exact ih (nodup_keys_setComplexKeyItem h write.1 write.2)

theorem lookup_eq_some_of_view (hvalue : value.isDict = false) (h : view d path = some value) :
    lookup d path = some value := by
  obtain ⟨w, hw, houtline⟩ := Option.map_eq_some_iff.mp h
  rw [hw, Value.eq_of_outline hvalue (houtline.trans ?_).symm]
  exact (Value.outline_of_not_isDict hvalue).symm

theorem get?_of_shows {before after : List (List Text × Value)}
    (hshows : Shows d (before ++ ([key], value) :: after)) (hvalue : value.isDict = false)
    (hfresh : ∀ write ∈ before ++ after, write.1.head? ≠ some key) :
    OrderedDict.get? d key = some value := by
  have hfilter : ((before ++ ([key], value) :: after).filter fun write => [key] <+: write.1) =
      [([key], value)].filter fun write => [key] <+: write.1 := by
    have hnil : ∀ writes : List (List Text × Value), (∀ write ∈ writes, write.1.head? ≠ some key) →
        (writes.filter fun write => [key] <+: write.1) = [] := by
      intro writes hwrites
      rw [List.filter_eq_nil_iff]
      intro write hwrite hinitial
      obtain ⟨rest, hrest⟩ := of_decide_eq_true hinitial
      exact hwrites write hwrite (hrest ▸ rfl)
    obtain ⟨hbefore, hafter⟩ := List.forall_mem_append.mp hfresh
    rw [List.append_cons, List.filter_append, List.filter_append, hnil before hbefore,
      hnil after hafter, List.nil_append, List.append_nil]
  have hview : view d [key] = some value := by
    rw [hshows, outcome_eq_of_filter hfilter]
    simp [outcome, valuesAt, collected, stored]
  rw [← lookup_singleton]
  exact lookup_eq_some_of_view hvalue hview

theorem shows_erase {before after : List (List Text × Value)}
    (hshows : Shows d (before ++ ([key], value) :: after)) (hkeys : (OrderedDict.keys d).Nodup)
    (hfresh : ∀ write ∈ before ++ after, write.1.head? ≠ some key) :
    Shows (OrderedDict.erase d key) (before ++ after) := by
  intro path
  cases path with
  | nil => rfl
  | cons k path =>
    obtain rfl | hk := eq_or_ne k key
    · have hnone : view (OrderedDict.erase d k) (k :: path) = none := by
        simp [view, lookup, OrderedDict.get?_erase_self hkeys]
      have hfilter : ((before ++ after).filter fun write => k :: path <+: write.1) = [] := by
        rw [List.filter_eq_nil_iff]
        intro write hwrite hinitial
        obtain ⟨rest, hrest⟩ := of_decide_eq_true hinitial
        exact hfresh write hwrite (hrest ▸ rfl)
      rw [hnone, @outcome_eq_of_filter _ _ [] hfilter]
      simp [outcome, valuesAt, collected]
    · have hview : view (OrderedDict.erase d key) (k :: path) = view d (k :: path) := by
        rw [view, lookup_cons_congr (OrderedDict.get?_erase_of_ne hk.symm), view]
      rw [hview, hshows]
      apply outcome_eq_of_filter
      rw [List.filter_append, List.filter_append, List.filter_cons_of_neg]
      simp [hk]

/-- Deleting an item and inserting it again only moves it to the end. -/
theorem view_reinsert (hget : OrderedDict.get? d key = some value) (path : List Text) :
    view (OrderedDict.set (OrderedDict.erase d key) key value) path = view d path := by
  cases path with
  | nil => rfl
  | cons k path =>
    have hkey : OrderedDict.get? (OrderedDict.set (OrderedDict.erase d key) key value) k =
        OrderedDict.get? d k := by
      rw [OrderedDict.get?_set]
      split
      · rename_i h
        rw [← h, hget]
      · rename_i h
        exact OrderedDict.get?_erase_of_ne h
    rw [view, lookup_cons_congr hkey, view]

theorem shows_of_get? (hsingle : ∀ write ∈ writes, ∃ key, write.1 = [key])
    (hget : ∀ key, OrderedDict.get? d key = collected (valuesAt writes [key]))
    (hleaves : ∀ write ∈ writes, write.2.isDict = false) : Shows d writes := by
  intro path
  have hlonger : ∀ key keys, ¬ ∃ write ∈ writes,
      key :: keys <+: write.1 ∧ key :: keys ≠ write.1 := by
    rintro key keys ⟨write, hwrite, hinitial, hne⟩
    obtain ⟨k, hk⟩ := hsingle write hwrite
    rw [hk] at hinitial hne
    obtain ⟨rfl, hnil⟩ := List.cons_prefix_cons.mp hinitial
    exact hne (by rw [List.prefix_nil.mp hnil])
  have hleaf : ∀ key, ∀ w ∈ OrderedDict.get? d key, w.isDict = false := by
    intro key w hw
    rw [hget] at hw
    exact isDict_collected (fun v hv => hleaves _ (mem_valuesAt.mp hv)) w hw
  cases path with
  | nil => simp [view_nil, outcome]
  | cons key keys =>
    rw [outcome, if_neg (by simpa using hlonger key keys)]
    obtain rfl | hkeys := eq_or_ne keys []
    · rw [view, lookup_singleton, ← hget]
      cases hfound : OrderedDict.get? d key with
      | none => rfl
      | some w => rw [Option.map_some, Value.outline_of_not_isDict (hleaf key w hfound)]
    · have hnone : valuesAt writes (key :: keys) = [] := by
        apply valuesAt_eq_nil
        intro write hwrite hpath
        obtain ⟨k, hk⟩ := hsingle write hwrite
        rw [hk] at hpath
        exact hkeys (List.cons.inj hpath).2.symm
      have hdict : view d [key] ≠ some (.dict []) := by
        rw [ne_eq, view_eq_dict_iff, lookup_singleton]
        rintro ⟨items, hitems⟩
        cases hleaf key _ hitems
      rw [hnone, ← List.singleton_append, view_append_of_not_dict hkeys hdict]
      rfl

end JuliaQueryString

end Swat4Stats
