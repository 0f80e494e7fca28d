import Swat4Stats.NestedItems

/-!
# Dotted keys

`expand_dots` writes to the dict whose keys it goes through. A raw key that has not had its turn
counts as a chain of one key here, so that the whole loop is a sequence of writes at every moment.
-/

namespace Swat4Stats

set_option autoImplicit false

/-- Equality of dicts ignores the order of their items. -/
inductive Value.Same : Value → Value → Prop
  | str (s : Text) : Same (.str s) (.str s)
  | list (items : List Value) : Same (.list items) (.list items)
  | dict {d e : Dict}
      (hkeys : ∀ key, OrderedDict.get? d key = none ↔ OrderedDict.get? e key = none)
      (hvalues : ∀ key v w, OrderedDict.get? d key = some v → OrderedDict.get? e key = some w →
        Same v w) : Same (.dict d) (.dict e)

namespace JuliaQueryString

/-- Raw items whose keys have different components. -/
structure RawItems (raw : Dict) : Prop where
  nodup : (OrderedDict.keys raw).Nodup
  leaves : ∀ entry ∈ raw, entry.2.isDict = false
  distinct : ∀ entry ∈ raw, ∀ entry' ∈ raw, dotComponents entry.1 ≠ [] →
    dotComponents entry.1 = dotComponents entry'.1 → entry.1 = entry'.1

def dottedWrites (raw : Dict) : List (List Text × Value) :=
  (raw.filter fun entry => dotComponents entry.1 ≠ []).map fun entry =>
    (dotComponents entry.1, entry.2)

def rawWrites (raw : Dict) : List (List Text × Value) := raw.map fun entry => ([entry.1], entry.2)

variable {d e raw raw' done todo : Dict} {key component : Text} {path : List Text} {value : Value}

theorem dotComponents_of_mem (h : component ∈ dotComponents key) :
    dotComponents component = [component] := by
  obtain ⟨hmem, hne⟩ := List.mem_filter.mp h
  obtain ⟨part, hpart, rfl⟩ := List.mem_map.mp hmem
  have hdot : '.' ∉ Text.strip part := fun hdot =>
    Text.not_mem_of_mem_split hpart ((Text.infix_stripBy Text.isSpace part).subset hdot)
  have hstrip : Text.strip (Text.strip part) = Text.strip part :=
    Text.stripBy_stripBy Text.isSpace part
  rw [dotComponents, Text.split_of_not_mem hdot, List.map_singleton, hstrip]
  exact List.filter_cons_of_pos hne

theorem mem_dottedWrites : (path, value) ∈ dottedWrites raw ↔
    path ≠ [] ∧ ∃ entry ∈ raw, dotComponents entry.1 = path ∧ entry.2 = value := by
  rw [dottedWrites, List.mem_map]
  constructor
  · rintro ⟨entry, hfilter, heq⟩
    obtain ⟨hentry, hne⟩ := List.mem_filter.mp hfilter
    obtain ⟨rfl, rfl⟩ := Prod.mk.inj heq
    exact ⟨of_decide_eq_true hne, entry, hentry, rfl, rfl⟩
  · rintro ⟨hne, entry, hentry, rfl, rfl⟩
    exact ⟨entry, List.mem_filter.mpr ⟨hentry, decide_eq_true hne⟩, rfl⟩

theorem mem_rawWrites : (path, value) ∈ rawWrites raw ↔
    ∃ entry ∈ raw, [entry.1] = path ∧ entry.2 = value := by
  rw [rawWrites, List.mem_map]
  constructor
  · rintro ⟨entry, hentry, heq⟩
    exact ⟨entry, hentry, Prod.mk.inj heq⟩
  · rintro ⟨entry, hentry, rfl, rfl⟩
    exact ⟨entry, hentry, rfl⟩

theorem dottedWrites_append (raw raw' : Dict) :
    dottedWrites (raw ++ raw') = dottedWrites raw ++ dottedWrites raw' := by
  rw [dottedWrites, List.filter_append, List.map_append]
  rfl

theorem dotComponents_of_head? {write : List Text × Value} (hwrite : write ∈ dottedWrites raw)
    (hhead : write.1.head? = some key) : dotComponents key = [key] := by
  obtain ⟨_, entry, _, hpath, _⟩ := mem_dottedWrites.mp hwrite
  exact dotComponents_of_mem (hpath ▸ List.mem_of_mem_head? hhead)

namespace RawItems

theorem entry_eq (hraw : RawItems raw) {entry entry' : Text × Value} (hentry : entry ∈ raw)
    (hentry' : entry' ∈ raw) (h : entry.1 = entry'.1) : entry = entry' :=
  List.inj_on_of_nodup_map hraw.nodup hentry hentry' h

theorem isDict_rawWrites (hraw : RawItems raw) :
    ∀ write ∈ rawWrites raw, write.2.isDict = false := by
  rintro ⟨path, value⟩ hwrite
  obtain ⟨entry, hentry, _, rfl⟩ := mem_rawWrites.mp hwrite
  exact hraw.leaves entry hentry

theorem perm (hraw : RawItems raw) (h : raw'.Perm raw) : RawItems raw' where
  nodup := (h.map Prod.fst).nodup_iff.mpr hraw.nodup
  leaves entry hentry := hraw.leaves entry (h.mem_iff.mp hentry)
  distinct entry hentry entry' hentry' :=
    hraw.distinct entry (h.mem_iff.mp hentry) entry' (h.mem_iff.mp hentry')

theorem nodup_paths (hraw : RawItems raw) : ((dottedWrites raw).map Prod.fst).Nodup := by
  rw [dottedWrites, List.map_map]
  refine List.Nodup.map_on ?_ ((hraw.nodup.of_map _).filter _)
  intro entry hentry entry' hentry' heq
  obtain ⟨hentry, hne⟩ := List.mem_filter.mp hentry
  have hentry' := (List.mem_filter.mp hentry').1
  exact hraw.entry_eq hentry hentry'
    (hraw.distinct entry hentry entry' hentry' (of_decide_eq_true hne) heq)

end RawItems

/-- Chains of keys that occur once leave nothing to the order of the writes. -/
theorem valuesAt_eq_of_perm {writes writes' : List (List Text × Value)}
    (h : (writes.map Prod.fst).Nodup) (hperm : writes'.Perm writes) (path : List Text) :
    valuesAt writes' path = valuesAt writes path := by
  have hvalues : (valuesAt writes' path).Perm (valuesAt writes path) :=
    (hperm.filter _).map Prod.snd
  have hlength := length_valuesAt h path
  cases hat : valuesAt writes path with
  | nil =>
    rw [hat] at hvalues
    exact List.perm_nil.mp hvalues
  | cons value values =>
    rw [hat, List.length_cons] at hlength
    obtain rfl : values = [] := List.length_eq_zero_iff.mp (by omega)
    rw [hat] at hvalues
    exact List.perm_singleton.mp hvalues

def writeDotted (d : Dict) (key : Text) (value : Value) : Dict :=
  match dotComponents key with
  | [] => d
  | components => setComplexKeyItem d components value

theorem writeDotted_eq (d : Dict) (key : Text) (value : Value) :
    writeDotted d key value = setComplexKeyItem d (dotComponents key) value := by
  rw [writeDotted]
  split
  · rename_i h
    rw [h, setComplexKeyItem]
  · rfl

/-- A raw key that a longer chain of keys has overwritten only moves. -/
theorem shows_shadowed
    (hshows : Shows d (dottedWrites done ++ rawWrites ((key, value) :: todo)))
    (hkeys : (OrderedDict.keys d).Nodup) {write : List Text × Value}
    (hwrite : write ∈ dottedWrites done) (hinitial : [key] <+: write.1) (hne : [key] ≠ write.1) :
    ∃ items, OrderedDict.get? d key = some (.dict items) ∧
      Shows (writeDotted (OrderedDict.erase d key) key (.dict items))
        (dottedWrites (done ++ [(key, value)]) ++ rawWrites todo) := by
  obtain ⟨rest, hrest⟩ := hinitial
  have hcomponents : dotComponents key = [key] :=
    dotComponents_of_head? hwrite (by rw [← hrest]; rfl)
  have hview : view d [key] = some (.dict []) := by
    rw [hshows, outcome, if_pos]
    exact .inr ⟨write, List.mem_append_left _ hwrite, ⟨rest, hrest⟩, hne⟩
  obtain ⟨items, hitems⟩ := view_eq_dict_iff.mp hview
  rw [lookup_singleton] at hitems
  refine ⟨items, hitems, ?_⟩
  have hwrites : dottedWrites (done ++ [(key, value)]) ++ rawWrites todo =
      dottedWrites done ++ rawWrites ((key, value) :: todo) := by
    rw [dottedWrites_append, List.append_assoc]
    simp [dottedWrites, rawWrites, hcomponents]
  intro path
  rw [hwrites, ← hshows path, writeDotted_eq, hcomponents, setComplexKeyItem, setItem_eq,
    OrderedDict.get?_erase_self hkeys, stored]
  exact view_reinsert hitems path

namespace RawItems

variable (hraw : RawItems (done ++ (key, value) :: todo))

include hraw

theorem ne_key {entry : Text × Value} (hentry : entry ∈ done ++ todo) : entry.1 ≠ key := by
  have hkeys : (OrderedDict.keys (done ++ (key, value) :: todo)).Nodup := hraw.nodup
  rw [OrderedDict.keys, List.map_append, List.map_cons, List.nodup_middle] at hkeys
  intro heq
  apply (List.nodup_cons.mp hkeys).1
  rw [← List.map_append]
  exact List.mem_map.mpr ⟨entry, hentry, heq⟩

theorem dotComponents_ne {entry : Text × Value} (hentry : entry ∈ done ++ todo)
    (hne : dotComponents key ≠ []) : dotComponents entry.1 ≠ dotComponents key := by
  intro heq
  have hmem : entry ∈ done ++ (key, value) :: todo := by
    obtain hentry | hentry := List.mem_append.mp hentry
    · exact List.mem_append_left _ hentry
    · exact List.mem_append_right _ (List.mem_cons_of_mem _ hentry)
  have hself : (key, value) ∈ done ++ (key, value) :: todo := by simp
  exact hraw.ne_key hentry (hraw.distinct _ hself _ hmem hne heq.symm).symm

/-- No other write begins with a key that no longer chain goes through. -/
theorem head?_ne (hlonger : ¬ ∃ write ∈ dottedWrites done, [key] <+: write.1 ∧ [key] ≠ write.1) :
    ∀ write ∈ dottedWrites done ++ rawWrites todo, write.1.head? ≠ some key := by
  intro write hwrite hhead
  obtain hwrite | hwrite := List.mem_append.mp hwrite
  · have hcomponents := dotComponents_of_head? hwrite hhead
    obtain ⟨_, entry, hentry, hpath, _⟩ := mem_dottedWrites.mp hwrite
    have hinitial : [key] <+: write.1 := by
      obtain ⟨rest, hrest⟩ := List.head?_eq_some_iff.mp hhead
      exact ⟨rest, hrest.symm⟩
    have hsame : [key] = write.1 := by
      by_contra hne
      exact hlonger ⟨write, hwrite, hinitial, hne⟩
    apply hraw.dotComponents_ne (List.mem_append_left _ hentry) (by simp [hcomponents])
    rw [hpath, ← hsame, hcomponents]
  · obtain ⟨entry, hentry, hpath, _⟩ := mem_rawWrites.mp hwrite
    rw [← hpath] at hhead
    exact hraw.ne_key (List.mem_append_right _ hentry) (Option.some.inj hhead)

/-- A raw key still to come is not the chain of keys that is written. -/
theorem valuesAt_swap (path : List Text) :
    valuesAt (dottedWrites done ++ rawWrites todo ++ dottedWrites [(key, value)]) path =
      valuesAt (dottedWrites (done ++ [(key, value)]) ++ rawWrites todo) path := by
  rw [dottedWrites_append, valuesAt_append, valuesAt_append, valuesAt_append, valuesAt_append,
    List.append_assoc, List.append_assoc]
  congr 1
  obtain rfl | hpath := eq_or_ne path (dotComponents key)
  · have hnil : valuesAt (rawWrites todo) (dotComponents key) = [] := by
      apply valuesAt_eq_nil
      rintro ⟨p, v⟩ hwrite rfl
      obtain ⟨entry, hentry, hsingle, _⟩ := mem_rawWrites.mp hwrite
      have hcomponent : entry.1 ∈ dotComponents key := by simp [← hsingle]
      apply hraw.dotComponents_ne (List.mem_append_right _ hentry) (by simp [← hsingle])
      rw [dotComponents_of_mem hcomponent, hsingle]
    rw [hnil, List.nil_append, List.append_nil]
  · have hnil : valuesAt (dottedWrites [(key, value)]) path = [] := by
      apply valuesAt_eq_nil
      rintro ⟨p, v⟩ hwrite rfl
      obtain ⟨_, entry, hentry, hcomponents, _⟩ := mem_dottedWrites.mp hwrite
      obtain rfl := List.mem_singleton.mp hentry
      exact hpath hcomponents.symm
    rw [hnil, List.nil_append, List.append_nil]

theorem isDict_writes :
    ∀ write ∈ dottedWrites done ++ rawWrites todo, write.2.isDict = false := by
  intro write hwrite
  obtain hwrite | hwrite := List.mem_append.mp hwrite
  · obtain ⟨_, entry, hentry, _, hvalue⟩ := mem_dottedWrites.mp hwrite
    rw [← hvalue]
    exact hraw.leaves entry (List.mem_append_left _ hentry)
  · obtain ⟨entry, hentry, _, hvalue⟩ := mem_rawWrites.mp hwrite
    rw [← hvalue]
    exact hraw.leaves entry (List.mem_append_right _ (List.mem_cons_of_mem _ hentry))

end RawItems

/-- Until its turn a raw key that no chain of keys goes through has its own value. -/
theorem shows_unshadowed (hraw : RawItems (done ++ (key, value) :: todo))
    (hshows : Shows d (dottedWrites done ++ rawWrites ((key, value) :: todo)))
    (hkeys : (OrderedDict.keys d).Nodup)
    (hlonger : ¬ ∃ write ∈ dottedWrites done, [key] <+: write.1 ∧ [key] ≠ write.1) :
    OrderedDict.get? d key = some value ∧
      Shows (writeDotted (OrderedDict.erase d key) key value)
        (dottedWrites (done ++ [(key, value)]) ++ rawWrites todo) := by
  have hfresh := hraw.head?_ne hlonger
  have hvalue : value.isDict = false := hraw.leaves (key, value) (by simp)
  refine ⟨get?_of_shows hshows hvalue hfresh, ?_⟩
  have herased : Shows (OrderedDict.erase d key) (dottedWrites done ++ rawWrites todo) :=
    shows_erase hshows hkeys hfresh
  have hwritten : Shows (writeDotted (OrderedDict.erase d key) key value)
      (dottedWrites done ++ rawWrites todo ++ dottedWrites [(key, value)]) := by
    rw [writeDotted_eq]
    obtain hnil | hne := eq_or_ne (dotComponents key) []
    · simpa [hnil, dottedWrites, setComplexKeyItem] using herased
    · have hlast : dottedWrites [(key, value)] = [(dotComponents key, value)] := by
        simp [dottedWrites, hne]
      rw [hlast]
      exact shows_setComplexKeyItem herased hne hvalue hraw.isDict_writes
  intro path
  rw [hwritten path]
  exact outcome_congr hraw.valuesAt_swap path

theorem foldlM_writeDotted (hraw : RawItems (done ++ todo))
    (hshows : Shows d (dottedWrites done ++ rawWrites todo)) (hkeys : (OrderedDict.keys d).Nodup) :
    ∃ e, (OrderedDict.keys todo).foldlM (fun d key => (OrderedDict.get? d key).map fun value =>
        writeDotted (OrderedDict.erase d key) key value) d = some e ∧
      (OrderedDict.keys e).Nodup ∧ Shows e (dottedWrites (done ++ todo)) := by
  induction todo generalizing done d with
  | nil =>
    refine ⟨d, rfl, hkeys, ?_⟩
    simpa [rawWrites] using hshows
  | cons entry todo ih =>
    obtain ⟨key, value⟩ := entry
    have happend : done ++ (key, value) :: todo = done ++ [(key, value)] ++ todo := by simp
    obtain ⟨value', hget, hstep⟩ : ∃ value', OrderedDict.get? d key = some value' ∧
        Shows (writeDotted (OrderedDict.erase d key) key value')
          (dottedWrites (done ++ [(key, value)]) ++ rawWrites todo) := by
      obtain ⟨write, hwrite, hinitial, hne⟩ | hlonger :=
        Decidable.em (∃ write ∈ dottedWrites done, [key] <+: write.1 ∧ [key] ≠ write.1)
      · obtain ⟨items, hitems, hshown⟩ := shows_shadowed hshows hkeys hwrite hinitial hne
        exact ⟨_, hitems, hshown⟩
      · exact ⟨value, shows_unshadowed hraw hshows hkeys hlonger⟩
    have hkeys : (OrderedDict.keys (writeDotted (OrderedDict.erase d key) key value')).Nodup := by
      rw [writeDotted_eq]
      exact nodup_keys_setComplexKeyItem (OrderedDict.nodup_keys_erase hkeys) _ _
    obtain ⟨e, hfold, he⟩ := ih (happend ▸ hraw) hstep hkeys
    refine ⟨e, ?_, happend ▸ he⟩
    have hcons : OrderedDict.keys ((key, value) :: todo) = key :: OrderedDict.keys todo := rfl
    rw [hcons, List.foldlM_cons, hget]
    exact hfold

theorem valuesAt_rawWrites (hraw : RawItems raw) (key : Text) :
    OrderedDict.get? raw key = collected (valuesAt (rawWrites raw) [key]) := by
  cases hget : OrderedDict.get? raw key with
  | none =>
    have hnil : valuesAt (rawWrites raw) [key] = [] := by
      apply valuesAt_eq_nil
      rintro ⟨p, v⟩ hwrite rfl
      obtain ⟨entry, hentry, hsingle, _⟩ := mem_rawWrites.mp hwrite
      obtain rfl : entry.1 = key := by simpa using hsingle
      exact OrderedDict.get?_eq_none_iff.mp hget (List.mem_map.mpr ⟨entry, hentry, rfl⟩)
    rw [hnil, collected, List.foldl_nil]
  | some value =>
    have hpaths : ((rawWrites raw).map Prod.fst).Nodup := by
      have hmap : (rawWrites raw).map Prod.fst = (OrderedDict.keys raw).map fun key => [key] := by
        simp [rawWrites, OrderedDict.keys]
      rw [hmap]
      exact hraw.nodup.map fun a b h => by simpa using h
    have hwrite : ([key], value) ∈ rawWrites raw :=
      mem_rawWrites.mpr ⟨(key, value), OrderedDict.mem_of_get? hget, rfl, rfl⟩
    rw [valuesAt_of_mem hpaths hwrite]
    rfl

theorem expandDots_shows (hraw : RawItems raw) : ∃ e, expandDots raw = some e ∧
    (OrderedDict.keys e).Nodup ∧ Shows e (dottedWrites raw) := by
  have hsingle : ∀ write ∈ rawWrites raw, ∃ key, write.1 = [key] := by
    rintro ⟨p, v⟩ hwrite
    obtain ⟨entry, _, hpath, _⟩ := mem_rawWrites.mp hwrite
    exact ⟨entry.1, hpath.symm⟩
  have hshows : Shows raw (dottedWrites [] ++ rawWrites raw) :=
    shows_of_get? hsingle (valuesAt_rawWrites hraw) hraw.isDict_rawWrites
  have hnil : RawItems ([] ++ raw) := hraw
  exact foldlM_writeDotted hnil hshows hraw.nodup

theorem same_of_view (d e : Dict) (h : ∀ path, view d path = view e path) :
    Value.Same (.dict d) (.dict e) := by
  have hkey : ∀ key, (OrderedDict.get? d key).map Value.outline =
      (OrderedDict.get? e key).map Value.outline := by
    intro key
    rw [← lookup_singleton, ← lookup_singleton]
    exact h [key]
  refine .dict ?_ ?_
  · intro key
    rw [← Option.map_eq_none_iff (f := Value.outline), hkey, Option.map_eq_none_iff]
  · intro key v w hv hw
    have houtline : v.outline = w.outline := by
      have hmap := hkey key
      rw [hv, hw] at hmap
      exact Option.some.inj hmap
    cases v with
    | str s =>
      rw [Value.eq_of_outline rfl houtline]
      exact .str s
    | list items =>
      rw [Value.eq_of_outline rfl houtline]
      exact .list items
    | dict items =>
      obtain ⟨items', rfl⟩ := Value.outline_eq_dict_iff.mp houtline.symm
      apply same_of_view items items'
      intro path
      cases path with
      | nil => rfl
      | cons k path =>
        have hpath := h (key :: k :: path)
        rw [view, view, lookup_cons_cons, lookup_cons_cons] at hpath
        rw [view, view]
        simpa only [nestedDict, hv, hw] using hpath
termination_by sizeOf d
decreasing_by
  have hmem := List.sizeOf_lt_of_mem (OrderedDict.mem_of_get? hv)
  simp only [Prod.mk.sizeOf_spec, Value.dict.sizeOf_spec] at hmem
  omega

theorem foldlM_writeDotted_components {todo done : Dict}
    (hnodup : (OrderedDict.keys (todo ++ done)).Nodup)
    (hcomponents : ∀ entry ∈ todo, dotComponents entry.1 = [entry.1]) :
    (OrderedDict.keys todo).foldlM (fun d key => (OrderedDict.get? d key).map fun value =>
        writeDotted (OrderedDict.erase d key) key value) (todo ++ done) = some (done ++ todo) := by
  induction todo generalizing done with
  | nil =>
    rw [List.nil_append, List.append_nil]
    rfl
  | cons entry todo ih =>
    obtain ⟨key, value⟩ := entry
    have hkey : key ∉ OrderedDict.keys (todo ++ done) := (List.nodup_cons.mp hnodup).1
    have hperm : (OrderedDict.keys (todo ++ (done ++ [(key, value)]))).Perm
        (OrderedDict.keys ((key, value) :: todo ++ done)) := by
      apply List.Perm.map
      rw [← List.append_assoc]
      exact List.perm_append_singleton (key, value) (todo ++ done)
    have hstep : writeDotted (OrderedDict.erase ((key, value) :: todo ++ done) key) key value =
        todo ++ (done ++ [(key, value)]) := by
      rw [List.cons_append, OrderedDict.erase_cons_self, writeDotted_eq,
        hcomponents (key, value) List.mem_cons_self, setComplexKeyItem, setItem_eq,
        OrderedDict.get?_eq_none_iff.mpr hkey, stored, OrderedDict.set_of_not_mem hkey,
        List.append_assoc]
    have hcons : OrderedDict.keys ((key, value) :: todo) = key :: OrderedDict.keys todo := rfl
    rw [hcons, List.foldlM_cons, List.cons_append, OrderedDict.get?_cons_self, Option.map_some,
      Option.bind_eq_bind, Option.bind_some, ← List.cons_append, hstep,
      ih (hperm.nodup_iff.mpr hnodup) fun entry hentry =>
        hcomponents entry (List.mem_cons_of_mem _ hentry)]
    simp

theorem expandDots_of_shows (hkeys : (OrderedDict.keys e).Nodup)
    (hshows : Shows e (dottedWrites raw)) :
    expandDots e = some e := by
  have hcomponents : ∀ entry ∈ e, dotComponents entry.1 = [entry.1] := by
    rintro ⟨key, value⟩ hentry
    have hview : view e [key] ≠ none := by
      rw [view, lookup_singleton, OrderedDict.get?_of_mem hkeys hentry]
      exact Option.some_ne_none _
    obtain ⟨write, hwrite, hinitial⟩ : ∃ write ∈ dottedWrites raw, [key] <+: write.1 := by
      by_contra hnone
      apply hview
      have hfilter : ((dottedWrites raw).filter fun write => [key] <+: write.1) =
          ([] : List (List Text × Value)).filter fun write => [key] <+: write.1 := by
        rw [List.filter_nil, List.filter_eq_nil_iff]
        exact fun write hwrite h => hnone ⟨write, hwrite, of_decide_eq_true h⟩
      rw [hshows, outcome_eq_of_filter hfilter]
      simp [outcome, valuesAt, collected]
    obtain ⟨rest, hrest⟩ := hinitial
    exact dotComponents_of_head? hwrite (by rw [← hrest]; rfl)
  have hnodup : (OrderedDict.keys (e ++ [])).Nodup := by rwa [List.append_nil]
  have hloop := foldlM_writeDotted_components hnodup hcomponents
  rwa [List.append_nil, List.nil_append] at hloop

/-- The leaf of a raw item is there unless a longer chain of keys goes through it. -/
theorem lookup_iff_of_shows (hraw : RawItems raw) (hshows : Shows e (dottedWrites raw))
    {entry : Text × Value} (hentry : entry ∈ raw) (hne : dotComponents entry.1 ≠ []) :
    lookup e (dotComponents entry.1) = some entry.2 ↔
      ∀ other ∈ raw, dotComponents entry.1 <+: dotComponents other.1 →
        dotComponents entry.1 = dotComponents other.1 := by
  have hwrite : (dotComponents entry.1, entry.2) ∈ dottedWrites raw :=
    mem_dottedWrites.mpr ⟨hne, entry, hentry, rfl, rfl⟩
  constructor
  · intro hlookup other hother hinitial
    by_contra hlonger
    have hother : (dotComponents other.1, other.2) ∈ dottedWrites raw := by
      refine mem_dottedWrites.mpr ⟨?_, other, hother, rfl, rfl⟩
      intro hnil
      rw [hnil] at hinitial
      exact hne (List.prefix_nil.mp hinitial)
    have hview : view e (dotComponents entry.1) = some (.dict []) := by
      rw [hshows, outcome, if_pos (.inr ⟨_, hother, hinitial, hlonger⟩)]
    obtain ⟨items, hitems⟩ := view_eq_dict_iff.mp hview
    rw [hitems] at hlookup
    have hleaf := hraw.leaves entry hentry
    rw [← Option.some.inj hlookup] at hleaf
    cases hleaf
  · intro hlongest
    apply lookup_eq_some_of_view (hraw.leaves entry hentry)
    rw [hshows, outcome, if_neg, valuesAt_of_mem hraw.nodup_paths hwrite]
    · rfl
    · rintro (hnil | ⟨⟨path, value⟩, hlongerWrite, hinitial, hlonger⟩)
      · exact hne hnil
      · obtain ⟨_, other, hother, rfl, _⟩ := mem_dottedWrites.mp hlongerWrite
        exact hlonger (hlongest other hother hinitial)

theorem exists_of_lookup (hraw : RawItems raw) (hshows : Shows e (dottedWrites raw))
    {path : List Text} (hlookup : lookup e path = some value) (hvalue : value.isDict = false) :
    ∃ entry ∈ raw, dotComponents entry.1 = path ∧ entry.2 = value := by
  have hview : view e path = some value := by
    rw [view, hlookup, Option.map_some, Value.outline_of_not_isDict hvalue]
  have hlength := length_valuesAt hraw.nodup_paths path
  rw [hshows, outcome] at hview
  split at hview
  · rw [← Option.some.inj hview] at hvalue
    cases hvalue
  · cases hat : valuesAt (dottedWrites raw) path with
    | nil =>
      rw [hat] at hview
      cases hview
    | cons w values =>
      rw [hat, List.length_cons] at hlength
      obtain rfl : values = [] := List.length_eq_zero_iff.mp (by omega)
      rw [hat] at hview
      obtain rfl : w = value := Option.some.inj hview
      have hmem : w ∈ valuesAt (dottedWrites raw) path := by simp [hat]
      exact (mem_dottedWrites.mp (mem_valuesAt.mp hmem)).2

/-- Dotted expansion is a function of the set of raw items, up to the order of the expanded ones:
its leaves are the items that no longer key shadows. -/
theorem expandDots_spec {raw : Dict} (hraw : RawItems raw) :
    ∃ expanded, expandDots raw = some expanded ∧
      (∀ raw', raw'.Perm raw →
        ∃ expanded', expandDots raw' = some expanded' ∧
          Value.Same (.dict expanded') (.dict expanded)) ∧
      (∀ entry ∈ raw, dotComponents entry.1 ≠ [] →
        (lookup expanded (dotComponents entry.1) = some entry.2 ↔
          ∀ other ∈ raw, dotComponents entry.1 <+: dotComponents other.1 →
            dotComponents entry.1 = dotComponents other.1)) ∧
      (∀ path value, lookup expanded path = some value → value.isDict = false →
        ∃ entry ∈ raw, dotComponents entry.1 = path ∧ entry.2 = value) ∧
      expandDots expanded = some expanded := by
  obtain ⟨expanded, hexpanded, hkeys, hshows⟩ := expandDots_shows hraw
  refine ⟨expanded, hexpanded, ?_, ?_, ?_, expandDots_of_shows hkeys hshows⟩
  · intro raw' hperm
    obtain ⟨expanded', hexpanded', _, hshows'⟩ := expandDots_shows (hraw.perm hperm)
    refine ⟨expanded', hexpanded', same_of_view _ _ ?_⟩
    intro path
    rw [hshows', hshows]
    apply outcome_congr
    exact valuesAt_eq_of_perm hraw.nodup_paths ((hperm.filter _).map _)
  · exact fun entry hentry hne => lookup_iff_of_shows hraw hshows hentry hne
  · exact fun path value hlookup hvalue => exists_of_lookup hraw hshows hlookup hvalue

/-- `a.b=1&a=2&.=3`. -/
def shadowedItems : Dict :=
  [(['a', '.', 'b'], .str ['1']), (['a'], .str ['2']), (['.'], .list [.str ['3']])]

theorem rawItems_shadowedItems : RawItems shadowedItems where
  nodup := by decide
  leaves := by decide
  distinct := by decide

theorem expandDots_shadowedItems : ∃ expanded, expandDots shadowedItems = some expanded ∧
    lookup expanded [['a'], ['b']] = some (.str ['1']) := by
  obtain ⟨expanded, hexpanded, _, hlookup, _, _⟩ := expandDots_spec rawItems_shadowedItems
  exact ⟨expanded, hexpanded,
    (hlookup (['a', '.', 'b'], .str ['1']) (by simp [shadowedItems]) (by decide)).mpr (by decide)⟩

end JuliaQueryString

end Swat4Stats
