import Swat4Stats.QueryParams
import Swat4Stats.NestedItems

/-!
# Keys with brackets

`expand_array` writes the values of one raw key after the other. A key without brackets stands in
the dict from the start at the place it is written to, so its values come before all others.
-/

namespace Swat4Stats

set_option autoImplicit false

/-- The values of an expanded query string: no list in a list, and no empty list. -/
def Value.IsFlat : Value → Prop
  | .list items => items ≠ [] ∧ ∀ item ∈ items, ∃ s, item = .str s
  | _ => True

/-- A single value of a query string, or one that an explicit `[]` has wrapped. -/
def Value.IsParam : Value → Prop
  | .str _ => True
  | .list items => ∃ s, items = [.str s]
  | .dict _ => False

theorem Value.IsParam.isDict {value : Value} (h : value.IsParam) : value.isDict = false := by
  cases value with
  | str s => rfl
  | list items => rfl
  | dict items => cases h

namespace JuliaQueryString

def isPlain (key : Text) : Bool := !key.any isBracket

/-- The chain of keys that a raw key stands for, and whether it has an explicit `[]`. -/
def arrayTarget (key : Text) : Option (List Text × Bool) :=
  (arrayPattern.matchAt key).map fun matched =>
    (arrayComponents matched, (matched.groups.lookup "listkey").isSome)

def arrayWrites (entry : Text × Value) : List (List Text × Value) :=
  match arrayTarget entry.1 with
  | none => []
  | some target => (arrayValues entry.2).map fun value =>
    (target.1, if target.2 then .list [value] else value)

/-- The raw items in the order in which their values are written. -/
def inWriteOrder (raw : Dict) : Dict :=
  raw.filter (fun entry => isPlain entry.1) ++ raw.filter fun entry => !isPlain entry.1

def bracketWrites (raw : Dict) : List (List Text × Value) :=
  (raw.filter fun entry => !isPlain entry.1).flatMap arrayWrites

def plainWrites (raw : Dict) : List (List Text × Value) :=
  (raw.filter fun entry => isPlain entry.1).flatMap arrayWrites

def rawBrackets (raw : Dict) : List (List Text × Value) :=
  (raw.filter fun entry => !isPlain entry.1).map fun entry => ([entry.1], entry.2)

/-- What `parse` gives. -/
structure Parsed (raw : Dict) : Prop where
  nodup : (OrderedDict.keys raw).Nodup
  names : ∀ entry ∈ raw, entry.1 ≠ []
  values : ∀ entry ∈ raw, ∃ texts, texts ≠ [] ∧ entry.2 = paramValue texts

variable {d raw done todo : Dict} {key : Text} {path : List Text} {value : Value}

theorem arrayTarget_of_isPlain (hne : key ≠ []) (h : isPlain key = true) :
    arrayTarget key = some ([key], false) := by
  have hall : ∀ c ∈ key, (fun c => !isBracket c) c = true := by
    intro c hc
    rw [isPlain, Bool.not_eq_true'] at h
    simpa using List.any_eq_false.mp h c hc
  have hmatch : arrayPattern.matchAt key = some ⟨[], [("key", key)]⟩ :=
    Regex.head?_seq_group_plus_set_nil "key" [] hne hall rfl
  rw [arrayTarget, hmatch]
  rfl

theorem exists_of_arrayTarget {target : List Text × Bool} (h : arrayTarget key = some target) :
    ∃ first rest, target.1 = first :: rest ∧ isPlain first = true := by
  obtain ⟨matched, hmatched, rfl⟩ := Option.map_eq_some_iff.mp h
  have hmem := List.mem_of_mem_head? hmatched
  obtain ⟨first, hfirst, _, hchars⟩ := Regex.lookup_group_plus_set (by decide) hmem
  refine ⟨first, _, by rw [arrayComponents, hfirst]; rfl, ?_⟩
  rw [isPlain, Bool.not_eq_true', List.any_eq_false]
  exact fun c hc => by simpa using hchars c hc

def writeArray (d : Dict) (key : Text) (dictValue : Value) : Dict :=
  match arrayPattern.matchAt key with
  | none => d
  | some matched =>
    (arrayValues dictValue).foldl (fun d value =>
      setComplexKeyItem d (arrayComponents matched)
        (if (matched.groups.lookup "listkey").isSome then .list [value] else value)) d

theorem writeArray_eq (d : Dict) (key : Text) (value : Value) :
    writeArray d key value = writeAll d (arrayWrites (key, value)) := by
  cases hmatch : arrayPattern.matchAt key with
  | none => simp [writeArray, arrayWrites, arrayTarget, hmatch, writeAll]
  | some matched =>
    simp only [writeArray, arrayWrites, arrayTarget, hmatch, Option.map_some, writeAll,
      List.foldl_map]

theorem mem_arrayWrites {entry : Text × Value} : (path, value) ∈ arrayWrites entry ↔
    ∃ target, arrayTarget entry.1 = some target ∧ target.1 = path ∧
      ∃ v ∈ arrayValues entry.2, (if target.2 then Value.list [v] else v) = value := by
  rw [arrayWrites]
  cases htarget : arrayTarget entry.1 with
  | none => simp
  | some target =>
    rw [List.mem_map]
    constructor
    · rintro ⟨v, hv, heq⟩
      obtain ⟨hpath, hvalue⟩ := Prod.mk.inj heq
      exact ⟨target, rfl, hpath, v, hv, hvalue⟩
    · rintro ⟨other, htarget, rfl, v, hv, rfl⟩
      obtain rfl := Option.some.inj htarget
      exact ⟨v, hv, rfl⟩

theorem arrayValues_paramValue (texts : List Text) (hne : texts ≠ []) :
    arrayValues (paramValue texts) = texts.map .str := by
  cases texts with
  | nil => exact absurd rfl hne
  | cons text texts =>
    cases texts with
    | nil => rfl
    | cons next texts => rfl

theorem isDict_paramValue (texts : List Text) : (paramValue texts).isDict = false := by
  cases texts with
  | nil => rfl
  | cons text texts =>
    cases texts with
    | nil => rfl
    | cons next texts => rfl

namespace Parsed

theorem isDict (hraw : Parsed raw) {entry : Text × Value} (hentry : entry ∈ raw) :
    entry.2.isDict = false := by
  obtain ⟨texts, _, hvalue⟩ := hraw.values entry hentry
  rw [hvalue, isDict_paramValue]

theorem arrayValues_eq (hraw : Parsed raw) {entry : Text × Value} (hentry : entry ∈ raw) :
    ∃ texts : List Text, texts ≠ [] ∧ arrayValues entry.2 = texts.map .str := by
  obtain ⟨texts, hne, hvalue⟩ := hraw.values entry hentry
  exact ⟨texts, hne, by rw [hvalue, arrayValues_paramValue texts hne]⟩

theorem isParam (hraw : Parsed raw) {entry : Text × Value} (hentry : entry ∈ raw) :
    ∀ write ∈ arrayWrites entry, write.2.IsParam := by
  rintro ⟨path, value⟩ hwrite
  obtain ⟨target, _, _, v, hv, rfl⟩ := mem_arrayWrites.mp hwrite
  obtain ⟨texts, _, htexts⟩ := hraw.arrayValues_eq hentry
  rw [htexts] at hv
  obtain ⟨s, _, rfl⟩ := List.mem_map.mp hv
  split
  · exact ⟨s, rfl⟩
  · trivial

end Parsed

theorem exists_of_mem_arrayWrites {entry : Text × Value} {write : List Text × Value}
    (h : write ∈ arrayWrites entry) :
    ∃ first rest, write.1 = first :: rest ∧ isPlain first = true := by
  obtain ⟨path, value⟩ := write
  obtain ⟨target, htarget, rfl, _⟩ := mem_arrayWrites.mp h
  exact exists_of_arrayTarget htarget

theorem collected_arrayValues {s : Text} {values : List Value}
    (hparam : ∀ v ∈ values, v.IsParam) {w : Value} (hw : collected (.str s :: values) = some w) :
    collected (arrayValues w) = some w := by
  cases values with
  | nil =>
    obtain rfl : .str s = w := Option.some.inj hw
    rfl
  | cons v values =>
    have hstr : ∀ l : List Value, (∀ v ∈ l, v.IsParam) →
        (l.flatMap arrayValues).flatMap arrayValues = l.flatMap arrayValues := by
      intro l hl
      rw [List.flatMap_assoc]
      apply List.flatMap_congr
      intro v hv
      have hv := hl v hv
      cases v with
      | str t => rfl
      | list items =>
        obtain ⟨t, rfl⟩ := hv
        rfl
      | dict items => cases hv
    rw [collected_str_cons] at hw
    obtain rfl := Option.some.inj hw
    rw [arrayValues, collected_str_cons,
      hstr values fun v hv => hparam v (List.mem_cons_of_mem _ hv)]

theorem collected_eq_none {values : List Value} (h : collected values = none) : values = [] := by
  induction values using List.reverseRecOn with
  | nil => rfl
  | append_singleton values value _ =>
    rw [collected_append] at h
    cases h

/-- The values of a new key of the outermost dict are collected under it. -/
theorem writeAll_singleton (hfresh : OrderedDict.get? d key = none)
    {values : List Value} {w : Value}
    (h : collected values = some w) :
    writeAll d (values.map fun value => ([key], value)) = OrderedDict.set d key w := by
  induction values using List.reverseRecOn generalizing w with
  | nil => cases h
  | append_singleton values value ih =>
    rw [collected_append] at h
    obtain rfl := Option.some.inj h
    rw [List.map_append, List.map_singleton, writeAll_concat, setComplexKeyItem, setItem_eq]
    cases hvalues : collected values with
    | none =>
      obtain rfl := collected_eq_none hvalues
      rw [List.map_nil, writeAll, List.foldl_nil, hfresh]
    | some x => rw [ih hvalues, OrderedDict.get?_set, if_pos rfl, OrderedDict.set_set]

theorem arrayWrites_of_isPlain (hne : key ≠ []) (h : isPlain key = true) (value : Value) :
    arrayWrites (key, value) = (arrayValues value).map fun v => ([key], v) := by
  simp [arrayWrites, arrayTarget_of_isPlain hne h]

theorem valuesAt_plainWrites (hraw : Parsed raw) {entry : Text × Value} (hentry : entry ∈ raw)
    (hplain : isPlain entry.1 = true) :
    valuesAt (plainWrites raw) [entry.1] = arrayValues entry.2 := by
  have hnames : ∀ e ∈ raw.filter fun entry => isPlain entry.1,
      arrayWrites e = (arrayValues e.2).map fun v => ([e.1], v) := by
    intro e he
    obtain ⟨he, hplain⟩ := List.mem_filter.mp he
    exact arrayWrites_of_isPlain (hraw.names e he) hplain e.2
  have hnodup : (OrderedDict.keys (raw.filter fun entry => isPlain entry.1)).Nodup :=
    hraw.nodup.sublist (List.filter_sublist.map Prod.fst)
  have hmem : (entry.1, entry.2) ∈ raw.filter fun entry => isPlain entry.1 :=
    List.mem_filter.mpr ⟨hentry, hplain⟩
  rw [plainWrites, valuesAt_flatMap, OrderedDict.flatMap_of_nodup hnodup hmem, hnames _ hmem]
  · simp [valuesAt, List.filter_map, Function.comp_def]
  · intro e he hne
    rw [hnames e he]
    apply valuesAt_eq_nil
    rintro write hwrite hpath
    obtain ⟨v, _, rfl⟩ := List.mem_map.mp hwrite
    exact hne (List.cons.inj hpath).1

theorem isParam_bracketWrites (hraw : Parsed (done ++ todo)) :
    ∀ write ∈ bracketWrites done, write.2.IsParam := by
  intro write hwrite
  obtain ⟨entry, hentry, hwrite⟩ := List.mem_flatMap.mp hwrite
  exact hraw.isParam (List.mem_append_left _ (List.mem_filter.mp hentry).1) write hwrite

theorem valuesAt_rawBrackets (hplain : isPlain key = true) (raw : Dict) (path : List Text) :
    valuesAt (rawBrackets raw) (key :: path) = [] := by
  apply valuesAt_eq_nil
  intro write hwrite hpath
  obtain ⟨entry, hentry, rfl⟩ := List.mem_map.mp hwrite
  have hbracket := (List.mem_filter.mp hentry).2
  rw [(List.cons.inj hpath).1, hplain] at hbracket
  cases hbracket

theorem collected_of_isPlain (hraw : Parsed (done ++ (key, value) :: todo))
    (hplain : isPlain key = true)
    (hshows : Shows d (plainWrites (done ++ (key, value) :: todo) ++ bracketWrites done ++
      rawBrackets ((key, value) :: todo))) :
    ∃ w, OrderedDict.get? d key = some w ∧ collected (arrayValues w) = some w := by
  have hself : (key, value) ∈ done ++ (key, value) :: todo := by simp
  have hview := hshows [key]
  rw [outcome] at hview
  split at hview
  · obtain ⟨items, hitems⟩ := view_eq_dict_iff.mp hview
    rw [lookup_singleton] at hitems
    exact ⟨_, hitems, rfl⟩
  · obtain ⟨texts, hne, htexts⟩ := hraw.arrayValues_eq hself
    obtain ⟨s, texts, rfl⟩ := List.exists_cons_of_ne_nil hne
    rw [valuesAt_append, valuesAt_append, valuesAt_plainWrites hraw hself hplain, htexts,
      valuesAt_rawBrackets hplain, List.append_nil, List.map_cons, List.cons_append] at hview
    have hparam : ∀ v ∈ texts.map Value.str ++ valuesAt (bracketWrites done) [key],
        v.IsParam := by
      intro v hv
      obtain hv | hv := List.mem_append.mp hv
      · obtain ⟨t, _, rfl⟩ := List.mem_map.mp hv
        trivial
      · exact isParam_bracketWrites hraw _ (mem_valuesAt.mp hv)
    cases hcollected :
        collected (.str s :: (texts.map .str ++ valuesAt (bracketWrites done) [key])) with
    | none => cases collected_eq_none hcollected
    | some w =>
      rw [hcollected] at hview
      have hleaf : w.isDict = false := by
        refine isDict_collected ?_ w hcollected
        intro v hv
        obtain rfl | hv := List.mem_cons.mp hv
        · rfl
        · exact (hparam v hv).isDict
      refine ⟨w, ?_, collected_arrayValues hparam hcollected⟩
      rw [← lookup_singleton]
      exact lookup_eq_some_of_view hleaf hview

/-- A raw key without brackets still has its place when its turn comes. -/
theorem shows_plain (hraw : Parsed (done ++ (key, value) :: todo)) (hplain : isPlain key = true)
    (hshows : Shows d (plainWrites (done ++ (key, value) :: todo) ++ bracketWrites done ++
      rawBrackets ((key, value) :: todo)))
    (hkeys : (OrderedDict.keys d).Nodup) :
    ∃ w, OrderedDict.get? d key = some w ∧
      Shows (writeArray (OrderedDict.erase d key) key w)
        (plainWrites (done ++ (key, value) :: todo) ++ bracketWrites (done ++ [(key, value)]) ++
          rawBrackets todo) := by
  have hself : (key, value) ∈ done ++ (key, value) :: todo := by simp
  obtain ⟨w, hget, hw⟩ := collected_of_isPlain hraw hplain hshows
  refine ⟨w, hget, ?_⟩
  have hbracket : bracketWrites (done ++ [(key, value)]) = bracketWrites done := by
    simp [bracketWrites, hplain]
  have hrawBrackets : rawBrackets ((key, value) :: todo) = rawBrackets todo := by
    simp [rawBrackets, hplain]
  intro path
  rw [hbracket, ← hrawBrackets, ← hshows path, writeArray_eq,
    arrayWrites_of_isPlain (hraw.names _ hself) hplain,
    writeAll_singleton (OrderedDict.get?_erase_self hkeys) hw]
  exact view_reinsert hget path

theorem valuesAt_arrayWrites (hbracket : isPlain key = false) (entry : Text × Value)
    (path : List Text) : valuesAt (arrayWrites entry) (key :: path) = [] := by
  apply valuesAt_eq_nil
  intro write hwrite hpath
  obtain ⟨first, rest, hfirst, hplain⟩ := exists_of_mem_arrayWrites hwrite
  rw [hpath] at hfirst
  rw [← (List.cons.inj hfirst).1, hbracket] at hplain
  cases hplain

namespace Parsed

variable (hraw : Parsed (done ++ (key, value) :: todo))

include hraw

/-- Nothing else is written under a raw key with brackets. -/
theorem head?_ne (hbracket : isPlain key = false) :
    ∀ write ∈ plainWrites (done ++ (key, value) :: todo) ++ bracketWrites done ++ rawBrackets todo,
      write.1.head? ≠ some key := by
  have harray : ∀ entry, ∀ write ∈ arrayWrites entry, write.1.head? ≠ some key := by
    intro entry write hwrite hhead
    obtain ⟨first, rest, hfirst, hplain⟩ := exists_of_mem_arrayWrites hwrite
    rw [hfirst, List.head?_cons] at hhead
    rw [Option.some.inj hhead, hbracket] at hplain
    cases hplain
  have hkeys : (OrderedDict.keys (done ++ (key, value) :: todo)).Nodup := hraw.nodup
  rw [OrderedDict.keys, List.map_append, List.map_cons, List.nodup_middle, List.nodup_cons,
    ← List.map_append] at hkeys
  intro write hwrite
  obtain hwrite | hwrite := List.mem_append.mp hwrite
  · obtain hwrite | hwrite := List.mem_append.mp hwrite
    · obtain ⟨entry, _, hwrite⟩ := List.mem_flatMap.mp hwrite
      exact harray entry write hwrite
    · obtain ⟨entry, _, hwrite⟩ := List.mem_flatMap.mp hwrite
      exact harray entry write hwrite
  · obtain ⟨entry, hentry, rfl⟩ := List.mem_map.mp hwrite
    intro hhead
    apply hkeys.1
    have hmem : entry ∈ done ++ todo := List.mem_append_right _ (List.mem_filter.mp hentry).1
    exact List.mem_map.mpr ⟨entry, hmem, Option.some.inj hhead⟩

theorem isDict_writes :
    ∀ write ∈ plainWrites (done ++ (key, value) :: todo) ++ bracketWrites done ++ rawBrackets todo,
      write.2.isDict = false := by
  intro write hwrite
  obtain hwrite | hwrite := List.mem_append.mp hwrite
  · obtain hwrite | hwrite := List.mem_append.mp hwrite
    · obtain ⟨entry, hentry, hwrite⟩ := List.mem_flatMap.mp hwrite
      exact (hraw.isParam (List.mem_filter.mp hentry).1 write hwrite).isDict
    · exact (isParam_bracketWrites hraw write hwrite).isDict
  · obtain ⟨entry, hentry, rfl⟩ := List.mem_map.mp hwrite
    have htodo := List.mem_cons_of_mem (key, value) (List.mem_filter.mp hentry).1
    exact hraw.isDict (List.mem_append_right _ htodo)

end Parsed

/-- The values of a raw key with brackets are written where it leads to. -/
theorem shows_bracket (hraw : Parsed (done ++ (key, value) :: todo))
    (hbracket : isPlain key = false)
    (hshows : Shows d (plainWrites (done ++ (key, value) :: todo) ++ bracketWrites done ++
      rawBrackets ((key, value) :: todo)))
    (hkeys : (OrderedDict.keys d).Nodup) :
    OrderedDict.get? d key = some value ∧
      Shows (writeArray (OrderedDict.erase d key) key value)
        (plainWrites (done ++ (key, value) :: todo) ++ bracketWrites (done ++ [(key, value)]) ++
          rawBrackets todo) := by
  have hself : (key, value) ∈ done ++ (key, value) :: todo := by simp
  have hvalue : value.isDict = false := hraw.isDict hself
  have hrawBrackets : rawBrackets ((key, value) :: todo) = ([key], value) :: rawBrackets todo := by
    simp [rawBrackets, hbracket]
  have hbracketWrites : bracketWrites (done ++ [(key, value)]) =
      bracketWrites done ++ arrayWrites (key, value) := by
    simp [bracketWrites, hbracket]
  have hnew : ∀ write ∈ arrayWrites (key, value), write.1 ≠ [] ∧ write.2.isDict = false := by
    intro write hwrite
    obtain ⟨first, rest, hpath, _⟩ := exists_of_mem_arrayWrites hwrite
    exact ⟨hpath ▸ List.cons_ne_nil first rest, (hraw.isParam hself write hwrite).isDict⟩
  rw [hrawBrackets] at hshows
  have hfresh := hraw.head?_ne hbracket
  refine ⟨get?_of_shows hshows hvalue hfresh, ?_⟩
  have hwritten := shows_writeAll (shows_erase hshows hkeys hfresh) hraw.isDict_writes hnew
  intro path
  rw [writeArray_eq, hwritten path, hbracketWrites]
  apply outcome_congr
  -- the chains of the new writes start without a bracket, the raw keys still to come have one
  intro path
  simp only [valuesAt_append, List.append_assoc]
  congr 2
  cases path with
  | nil =>
    rw [valuesAt_eq_nil fun write hwrite => (hnew write hwrite).1, List.append_nil, List.nil_append]
  | cons first rest =>
    obtain hfirst | hfirst := Bool.eq_false_or_eq_true (isPlain first)
    · rw [valuesAt_rawBrackets hfirst, List.append_nil, List.nil_append]
    · rw [valuesAt_arrayWrites hfirst, List.append_nil, List.nil_append]

theorem foldlM_writeArray (hraw : Parsed (done ++ todo))
    (hshows : Shows d (plainWrites (done ++ todo) ++ bracketWrites done ++ rawBrackets todo))
    (hkeys : (OrderedDict.keys d).Nodup) :
    ∃ e, (OrderedDict.keys todo).foldlM (fun d key => (OrderedDict.get? d key).map fun value =>
        writeArray (OrderedDict.erase d key) key value) d = some e ∧
      Shows e (plainWrites (done ++ todo) ++ bracketWrites (done ++ todo)) := by
  induction todo generalizing done d with
  | nil =>
    refine ⟨d, rfl, ?_⟩
    simpa [rawBrackets] using hshows
  | cons entry todo ih =>
    obtain ⟨key, value⟩ := entry
    have happend : done ++ (key, value) :: todo = done ++ [(key, value)] ++ todo := by simp
    obtain ⟨w, hget, hstep⟩ : ∃ w, OrderedDict.get? d key = some w ∧
        Shows (writeArray (OrderedDict.erase d key) key w)
          (plainWrites (done ++ (key, value) :: todo) ++ bracketWrites (done ++ [(key, value)]) ++
            rawBrackets todo) := by
      obtain hplain | hbracket := Bool.eq_false_or_eq_true (isPlain key)
      · exact shows_plain hraw hplain hshows hkeys
      · exact ⟨value, shows_bracket hraw hbracket hshows hkeys⟩
    have hkeys : (OrderedDict.keys (writeArray (OrderedDict.erase d key) key w)).Nodup := by
      rw [writeArray_eq]
      exact nodup_keys_writeAll (OrderedDict.nodup_keys_erase hkeys) _
    obtain ⟨e, hfold, he⟩ := ih (happend ▸ hraw) (happend ▸ hstep) hkeys
    refine ⟨e, ?_, happend ▸ he⟩
    have hcons : OrderedDict.keys ((key, value) :: todo) = key :: OrderedDict.keys todo := rfl
    rw [hcons, List.foldlM_cons, hget]
    exact hfold

theorem collected_map_str {texts : List Text} (hne : texts ≠ []) :
    collected (texts.map .str) = some (paramValue texts) := by
  cases texts with
  | nil => exact absurd rfl hne
  | cons s texts =>
    cases texts with
    | nil => rfl
    | cons t texts =>
      rw [List.map_cons, List.map_cons, collected_str_cons, List.flatMap_map]
      simp [arrayValues, paramValue, List.map_eq_flatMap]

theorem shows_raw (hraw : Parsed raw) : Shows raw (plainWrites raw ++ rawBrackets raw) := by
  have hplainWrites : ∀ write ∈ plainWrites raw, write.2.IsParam ∧
      ∃ entry ∈ raw, isPlain entry.1 = true ∧ write.1 = [entry.1] := by
    intro write hwrite
    obtain ⟨entry, hentry, hwrite⟩ := List.mem_flatMap.mp hwrite
    obtain ⟨hentry, hplain⟩ := List.mem_filter.mp hentry
    refine ⟨hraw.isParam hentry write hwrite, entry, hentry, hplain, ?_⟩
    rw [arrayWrites_of_isPlain (hraw.names entry hentry) hplain] at hwrite
    obtain ⟨v, _, rfl⟩ := List.mem_map.mp hwrite
    rfl
  have hbrackets : ∀ write ∈ rawBrackets raw,
      ∃ entry ∈ raw, isPlain entry.1 = false ∧ write = ([entry.1], entry.2) := by
    intro write hwrite
    obtain ⟨entry, hentry, rfl⟩ := List.mem_map.mp hwrite
    obtain ⟨hentry, hbracket⟩ := List.mem_filter.mp hentry
    exact ⟨entry, hentry, by simpa using hbracket, rfl⟩
  have hpaths : ((rawBrackets raw).map Prod.fst).Nodup := by
    have hmap : (rawBrackets raw).map Prod.fst =
        (OrderedDict.keys (raw.filter fun entry => !isPlain entry.1)).map fun key => [key] := by
      simp [rawBrackets, OrderedDict.keys]
    rw [hmap]
    exact (hraw.nodup.sublist (List.filter_sublist.map Prod.fst)).map fun a b h => by simpa using h
  apply shows_of_get?
  · intro write hwrite
    obtain hwrite | hwrite := List.mem_append.mp hwrite
    · obtain ⟨_, entry, _, _, hpath⟩ := hplainWrites write hwrite
      exact ⟨entry.1, hpath⟩
    · obtain ⟨entry, _, _, rfl⟩ := hbrackets write hwrite
      exact ⟨entry.1, rfl⟩
  · intro key
    rw [valuesAt_append]
    cases hget : OrderedDict.get? raw key with
    | none =>
      have hkey : ∀ entry ∈ raw, entry.1 ≠ key := fun entry hentry heq =>
        OrderedDict.get?_eq_none_iff.mp hget (List.mem_map.mpr ⟨entry, hentry, heq⟩)
      rw [valuesAt_eq_nil, valuesAt_eq_nil]
      · rfl
      · intro write hwrite hpath
        obtain ⟨entry, hentry, _, rfl⟩ := hbrackets write hwrite
        exact hkey entry hentry (List.cons.inj hpath).1
      · intro write hwrite hpath
        obtain ⟨_, entry, hentry, _, hsingle⟩ := hplainWrites write hwrite
        rw [hsingle] at hpath
        exact hkey entry hentry (List.cons.inj hpath).1
    | some value =>
      have hentry := OrderedDict.mem_of_get? hget
      obtain hplain | hbracket := Bool.eq_false_or_eq_true (isPlain key)
      · obtain ⟨texts, hne, hvalue⟩ := hraw.values _ hentry
        have hvalue : value = paramValue texts := hvalue
        rw [valuesAt_rawBrackets hplain, List.append_nil, valuesAt_plainWrites hraw hentry hplain,
          hvalue, arrayValues_paramValue texts hne, collected_map_str hne]
      · have hnil : valuesAt (plainWrites raw) [key] = [] := by
          apply valuesAt_eq_nil
          intro write hwrite hpath
          obtain ⟨_, entry, _, hplain, hsingle⟩ := hplainWrites write hwrite
          rw [hsingle] at hpath
          rw [(List.cons.inj hpath).1, hbracket] at hplain
          cases hplain
        have hwrite : ([key], value) ∈ rawBrackets raw :=
          List.mem_map.mpr ⟨_, List.mem_filter.mpr ⟨hentry, by simp [hbracket]⟩, rfl⟩
        rw [hnil, valuesAt_of_mem hpaths hwrite]
        rfl
  · intro write hwrite
    obtain hwrite | hwrite := List.mem_append.mp hwrite
    · exact (hplainWrites write hwrite).1.isDict
    · obtain ⟨entry, hentry, _, rfl⟩ := hbrackets write hwrite
      exact hraw.isDict hentry

theorem expandArray_shows (hraw : Parsed raw) : ∃ e, expandArray raw = some e ∧
    Shows e ((inWriteOrder raw).flatMap arrayWrites) := by
  have hnil : Parsed ([] ++ raw) := hraw
  have hshows : Shows raw (plainWrites ([] ++ raw) ++ bracketWrites [] ++ rawBrackets raw) := by
    simpa [bracketWrites] using shows_raw hraw
  rw [inWriteOrder, List.flatMap_append]
  exact foldlM_writeArray hnil hshows hraw.nodup

theorem parsed_parse (queryString : Text) : Parsed (parse queryString) := by
  rw [parse_eq]
  have hcollect := OrderedDict.nodup_keys_collect (named (parseQuerystring queryString))
  constructor
  · rwa [OrderedDict.keys_mapValues]
  · intro entry hentry
    obtain ⟨⟨name, values⟩, hvalues, rfl⟩ := List.mem_map.mp hentry
    obtain ⟨param, hparam, rfl⟩ := List.mem_map.mp (OrderedDict.key_of_mem_collect hvalues)
    exact of_decide_eq_true (List.mem_filter.mp hparam).2
  · intro entry hentry
    obtain ⟨⟨name, values⟩, hvalues, rfl⟩ := List.mem_map.mp hentry
    exact ⟨values, get?_collect_ne_nil (OrderedDict.get?_of_mem hcollect hvalues), rfl⟩

theorem str_of_mem_flatMap {values : List Value} (hparam : ∀ v ∈ values, v.IsParam) :
    ∀ item ∈ values.flatMap arrayValues, ∃ s, item = .str s := by
  intro item hitem
  obtain ⟨v, hv, hitem⟩ := List.mem_flatMap.mp hitem
  have hv := hparam v hv
  cases v with
  | str s => exact ⟨s, List.mem_singleton.mp hitem⟩
  | list items =>
    obtain ⟨s, rfl⟩ := hv
    exact ⟨s, List.mem_singleton.mp hitem⟩
  | dict items => cases hv

/-- A list gets into a list where it meets a single text. -/
theorem isFlat_collected_iff {values : List Value} (hparam : ∀ v ∈ values, v.IsParam) :
    (∀ w ∈ collected values, w.IsFlat) ↔
      ¬ ∃ s items rest, values = .str s :: .list items :: rest := by
  cases values with
  | nil => simp [collected]
  | cons v values =>
    obtain ⟨hv, hvalues⟩ := List.forall_mem_cons.mp hparam
    cases v with
    | str s =>
      cases values with
      | nil =>
        have hcollected : collected [.str s] = some (.str s) := rfl
        rw [hcollected]
        simp [Value.IsFlat]
      | cons u values =>
        obtain ⟨hu, hvalues⟩ := List.forall_mem_cons.mp hvalues
        have hstr := str_of_mem_flatMap hvalues
        rw [collected_str_cons]
        cases u with
        | str t =>
          refine iff_of_true ?_ (by simp)
          intro w hw
          obtain rfl := Option.some.inj hw
          refine ⟨by simp, ?_⟩
          intro item hitem
          obtain rfl | hitem := List.mem_cons.mp hitem
          · exact ⟨s, rfl⟩
          · obtain rfl | hitem := List.mem_cons.mp hitem
            · exact ⟨t, rfl⟩
            · exact hstr item hitem
        | list items =>
          refine iff_of_false ?_ (fun h => h ⟨s, items, values, rfl⟩)
          intro hflat
          obtain ⟨t, ht⟩ := (hflat _ rfl).2 (.list items) (by simp)
          cases ht
        | dict items => cases hu
    | list items =>
      obtain ⟨s, rfl⟩ := hv
      have hstr := str_of_mem_flatMap hvalues
      rw [collected_list_cons]
      refine iff_of_true ?_ (by simp)
      intro w hw
      obtain rfl := Option.some.inj hw
      refine ⟨by simp, ?_⟩
      intro item hitem
      obtain rfl | hitem := List.mem_cons.mp hitem
      · exact ⟨s, rfl⟩
      · exact hstr item hitem
    | dict items => cases hv

/-- What is seen is flat where the writes to each longest chain of keys are. -/
theorem isFlat_iff_of_shows {writes : List (List Text × Value)} (hshows : Shows d writes)
    (hparam : ∀ write ∈ writes, write.2.IsParam) :
    (∀ path value, lookup d path = some value → value.IsFlat) ↔
      ∀ path, path ≠ [] → (¬ ∃ write ∈ writes, path <+: write.1 ∧ path ≠ write.1) →
        ¬ ∃ s items rest, valuesAt writes path = .str s :: .list items :: rest := by
  have hvalues : ∀ path, ∀ v ∈ valuesAt writes path, v.IsParam :=
    fun path v hv => hparam _ (mem_valuesAt.mp hv)
  constructor
  · intro hflat path hpath hlonger
    rw [← isFlat_collected_iff (hvalues path)]
    intro w hw
    have hleaf : w.isDict = false :=
      isDict_collected (fun v hv => (hvalues path v hv).isDict) w hw
    apply hflat path
    apply lookup_eq_some_of_view hleaf
    rw [hshows, outcome, if_neg (not_or.mpr ⟨hpath, hlonger⟩)]
    exact hw
  · intro hnests path value hlookup
    have hview : view d path = some value.outline := by
      rw [view, hlookup, Option.map_some]
    rw [hshows, outcome] at hview
    split at hview
    · obtain ⟨items, rfl⟩ := Value.outline_eq_dict_iff.mp (Option.some.inj hview).symm
      trivial
    · rename_i hlonger
      obtain ⟨hpath, hlonger⟩ := not_or.mp hlonger
      have hflat := (isFlat_collected_iff (hvalues path)).mpr (hnests path hpath hlonger) _ hview
      cases value with
      | str s => exact hflat
      | list items => exact hflat
      | dict items => trivial

/-- The names of the parameters, in the order in which their values are written. -/
def writeOrder (params : List (Text × Text)) : List Text :=
  let names := ((named params).map Prod.fst).eraseDups
  names.filter (fun name => isPlain name) ++ names.filter fun name => !isPlain name

def leadsTo (path : List Text) (name : Text) : Bool := (arrayTarget name).map Prod.fst = some path

/-- A single text without `[]` is the first value at a chain of keys that is not a part of another
one, and the next name there has a `[]`. -/
structure Nests (params : List (Text × Text)) (path : List Text) : Prop where
  longest : ∀ name ∈ writeOrder params, ∀ target, arrayTarget name = some target →
    path <+: target.1 → path = target.1
  first : ∃ name next rest, (writeOrder params).filter (leadsTo path) = name :: next :: rest ∧
    arrayTarget name = some (path, false) ∧ arrayTarget next = some (path, true) ∧
    (named params).countP (fun param => param.1 = name) = 1

theorem keys_inWriteOrder (queryString : Text) :
    OrderedDict.keys (inWriteOrder (parse queryString)) =
      writeOrder (parseQuerystring queryString) := by
  have hkeys : OrderedDict.keys (parse queryString) =
      ((named (parseQuerystring queryString)).map Prod.fst).eraseDups := by
    rw [parse_eq, OrderedDict.keys_mapValues]
    exact OrderedDict.keys_collect _
  rw [writeOrder, ← hkeys, inWriteOrder, OrderedDict.keys, List.map_append, OrderedDict.keys,
    List.filter_map, List.filter_map]
  rfl

theorem length_arrayValues {queryString : Text} {entry : Text × Value}
    (hentry : entry ∈ parse queryString) : (arrayValues entry.2).length =
      (named (parseQuerystring queryString)).countP fun param => param.1 = entry.1 := by
  rw [parse_eq] at hentry
  obtain ⟨⟨name, values⟩, hvalues, rfl⟩ := List.mem_map.mp hentry
  have hne : values ≠ [] := get?_collect_ne_nil
    (OrderedDict.get?_of_mem (OrderedDict.nodup_keys_collect _) hvalues)
  have hvalues : values = _ := OrderedDict.snd_of_mem_collect hvalues
  rw [arrayValues_paramValue values hne, List.length_map, hvalues, List.length_map,
    List.countP_eq_length_filter]

theorem valuesAt_arrayWrites_of_target {entry : Text × Value} {explicit : Bool}
    (h : arrayTarget entry.1 = some (path, explicit)) : valuesAt (arrayWrites entry) path =
      (arrayValues entry.2).map fun v => if explicit then .list [v] else v := by
  simp [arrayWrites, h, valuesAt, List.filter_map, Function.comp_def]

theorem valuesAt_arrayWrites_of_not_leadsTo {entry : Text × Value}
    (h : leadsTo path entry.1 = false) : valuesAt (arrayWrites entry) path = [] := by
  apply valuesAt_eq_nil
  rintro ⟨p, v⟩ hwrite rfl
  obtain ⟨target, htarget, rfl, _⟩ := mem_arrayWrites.mp hwrite
  rw [leadsTo, htarget] at h
  simp at h

theorem flatMap_valuesAt (entries : Dict) (path : List Text) :
    valuesAt (entries.flatMap arrayWrites) path =
      (entries.filter fun entry => leadsTo path entry.1).flatMap fun entry =>
        valuesAt (arrayWrites entry) path := by
  rw [valuesAt_flatMap]
  induction entries with
  | nil => rfl
  | cons entry entries ih =>
    obtain hleads | hleads := Bool.eq_false_or_eq_true (leadsTo path entry.1)
    · rw [List.filter_cons_of_pos (by simpa using hleads), List.flatMap_cons, List.flatMap_cons, ih]
    · rw [List.filter_cons_of_neg (by simp [hleads]), List.flatMap_cons, ih,
        valuesAt_arrayWrites_of_not_leadsTo hleads, List.nil_append]

theorem exists_of_leadsTo {entry : Text × Value} (hleads : leadsTo path entry.1 = true)
    (htexts : ∃ texts : List Text, texts ≠ [] ∧ arrayValues entry.2 = texts.map .str) :
    ∃ explicit text texts, arrayTarget entry.1 = some (path, explicit) ∧
      (arrayValues entry.2).length = texts.length + 1 ∧
      valuesAt (arrayWrites entry) path = (text :: texts).map fun (t : Text) =>
        if explicit then .list [.str t] else .str t := by
  obtain ⟨⟨p, explicit⟩, htarget, rfl⟩ := Option.map_eq_some_iff.mp (of_decide_eq_true hleads)
  obtain ⟨texts, hne, hvalues⟩ := htexts
  obtain ⟨text, texts, rfl⟩ := List.exists_cons_of_ne_nil hne
  refine ⟨explicit, text, texts, htarget, by simp [hvalues], ?_⟩
  rw [valuesAt_arrayWrites_of_target htarget, hvalues, List.map_map]
  rfl

/-- The first two values at a chain of keys, by the raw items that lead to it. -/
theorem nests_values_iff {entries : Dict} (hleads : ∀ entry ∈ entries, leadsTo path entry.1 = true)
    (htexts : ∀ entry ∈ entries, ∃ texts : List Text,
      texts ≠ [] ∧ arrayValues entry.2 = texts.map .str) :
    (∃ s items rest, (entries.flatMap fun entry => valuesAt (arrayWrites entry) path) =
      .str s :: .list items :: rest) ↔
    ∃ entry next rest, entries = entry :: next :: rest ∧
      arrayTarget entry.1 = some (path, false) ∧ arrayTarget next.1 = some (path, true) ∧
      (arrayValues entry.2).length = 1 := by
  cases entries with
  | nil => simp
  | cons entry entries =>
    obtain ⟨hentryLeads, hleads⟩ := List.forall_mem_cons.mp hleads
    obtain ⟨hentryTexts, htexts⟩ := List.forall_mem_cons.mp htexts
    obtain ⟨explicit, text, texts, htarget, hlength, hvalues⟩ :=
      exists_of_leadsTo hentryLeads hentryTexts
    rw [List.flatMap_cons, hvalues]
    cases explicit with
    | true =>
      apply iff_of_false (by simp)
      rintro ⟨_, next, rest, heq, hfirst, _⟩
      obtain ⟨rfl, _⟩ := List.cons.inj heq
      rw [htarget] at hfirst
      cases hfirst
    | false =>
      cases texts with
      | cons t texts =>
        apply iff_of_false (by simp)
        rintro ⟨_, next, rest, heq, _, _, hone⟩
        obtain ⟨rfl, _⟩ := List.cons.inj heq
        rw [hlength, List.length_cons] at hone
        omega
      | nil =>
        cases entries with
        | nil => simp
        | cons next entries =>
          obtain ⟨explicit, t, texts, hnext, _, hvalues⟩ :=
            exists_of_leadsTo (hleads next List.mem_cons_self) (htexts next List.mem_cons_self)
          rw [List.flatMap_cons, hvalues]
          cases explicit with
          | true => exact iff_of_true (by simp) ⟨entry, next, entries, rfl, htarget, hnext, hlength⟩
          | false =>
            apply iff_of_false (by simp)
            rintro ⟨_, _, rest, heq, _, hlast, _⟩
            obtain ⟨_, htail⟩ := List.cons.inj heq
            obtain ⟨rfl, _⟩ := List.cons.inj htail
            rw [hnext] at hlast
            cases hlast

theorem mem_of_mem_inWriteOrder {entry : Text × Value} (h : entry ∈ inWriteOrder raw) :
    entry ∈ raw := by
  obtain h | h := List.mem_append.mp h
  · exact (List.mem_filter.mp h).1
  · exact (List.mem_filter.mp h).1

theorem exists_write_iff (hraw : Parsed raw) (P : List Text → Prop) :
    (∃ write ∈ (inWriteOrder raw).flatMap arrayWrites, P write.1) ↔
      ∃ name ∈ OrderedDict.keys (inWriteOrder raw), ∃ target, arrayTarget name = some target ∧
        P target.1 := by
  constructor
  · rintro ⟨⟨path, value⟩, hwrite, hpath⟩
    obtain ⟨entry, hentry, hwrite⟩ := List.mem_flatMap.mp hwrite
    obtain ⟨target, htarget, rfl, _⟩ := mem_arrayWrites.mp hwrite
    exact ⟨entry.1, List.mem_map_of_mem hentry, target, htarget, hpath⟩
  · rintro ⟨name, hname, target, htarget, hpath⟩
    obtain ⟨entry, hentry, rfl⟩ := List.mem_map.mp hname
    obtain ⟨texts, hne, htexts⟩ := hraw.arrayValues_eq (mem_of_mem_inWriteOrder hentry)
    obtain ⟨text, texts, rfl⟩ := List.exists_cons_of_ne_nil hne
    have hvalue : Value.str text ∈ arrayValues entry.2 := by simp [htexts]
    exact ⟨_, List.mem_flatMap.mpr ⟨entry, hentry,
      mem_arrayWrites.mpr ⟨target, htarget, rfl, _, hvalue, rfl⟩⟩, hpath⟩

/-- Names and raw items tell the same about the first two values at a chain of keys. -/
theorem first_iff (queryString : Text) (path : List Text) :
    (∃ name next rest,
      (writeOrder (parseQuerystring queryString)).filter (leadsTo path) = name :: next :: rest ∧
      arrayTarget name = some (path, false) ∧ arrayTarget next = some (path, true) ∧
      (named (parseQuerystring queryString)).countP (fun param => param.1 = name) = 1) ↔
    ∃ entry next rest,
      (inWriteOrder (parse queryString)).filter (fun entry => leadsTo path entry.1) =
        entry :: next :: rest ∧
      arrayTarget entry.1 = some (path, false) ∧ arrayTarget next.1 = some (path, true) ∧
      (arrayValues entry.2).length = 1 := by
  have hnames : (writeOrder (parseQuerystring queryString)).filter (leadsTo path) =
      ((inWriteOrder (parse queryString)).filter fun entry => leadsTo path entry.1).map
        Prod.fst := by
    rw [← keys_inWriteOrder, OrderedDict.keys, List.filter_map]
    rfl
  rw [hnames]
  constructor
  · rintro ⟨name, next, rest, hfilter, hname, hnext, hcount⟩
    obtain ⟨entry, entries, hentries, rfl, htail⟩ := List.map_eq_cons_iff.mp hfilter
    obtain ⟨second, entries, rfl, rfl, _⟩ := List.map_eq_cons_iff.mp htail
    refine ⟨entry, second, entries, hentries, hname, hnext, ?_⟩
    have hentry : entry ∈ (inWriteOrder (parse queryString)).filter fun entry =>
        leadsTo path entry.1 := by simp [hentries]
    rw [length_arrayValues (mem_of_mem_inWriteOrder (List.mem_filter.mp hentry).1), hcount]
  · rintro ⟨entry, next, rest, hfilter, hentryTarget, hnext, hlength⟩
    refine ⟨entry.1, next.1, rest.map Prod.fst, by simp [hfilter], hentryTarget, hnext, ?_⟩
    have hentry : entry ∈ (inWriteOrder (parse queryString)).filter fun entry =>
        leadsTo path entry.1 := by simp [hfilter]
    rw [← length_arrayValues (mem_of_mem_inWriteOrder (List.mem_filter.mp hentry).1), hlength]

theorem nests_iff (queryString : Text) (path : List Text) :
    Nests (parseQuerystring queryString) path ↔ path ≠ [] ∧
      (¬ ∃ write ∈ (inWriteOrder (parse queryString)).flatMap arrayWrites,
        path <+: write.1 ∧ path ≠ write.1) ∧
      ∃ s items rest, valuesAt ((inWriteOrder (parse queryString)).flatMap arrayWrites) path =
        .str s :: .list items :: rest := by
  have hraw := parsed_parse queryString
  have hleads : ∀ entry ∈ (inWriteOrder (parse queryString)).filter fun entry =>
      leadsTo path entry.1, leadsTo path entry.1 = true :=
    fun entry hentry => (List.mem_filter.mp hentry).2
  have htexts : ∀ entry ∈ (inWriteOrder (parse queryString)).filter fun entry =>
      leadsTo path entry.1, ∃ texts : List Text, texts ≠ [] ∧
        arrayValues entry.2 = texts.map .str :=
    fun entry hentry => hraw.arrayValues_eq
      (mem_of_mem_inWriteOrder (List.mem_filter.mp hentry).1)
  rw [flatMap_valuesAt, nests_values_iff hleads htexts, ← first_iff,
    exists_write_iff hraw fun p => path <+: p ∧ path ≠ p, keys_inWriteOrder]
  constructor
  · intro h
    refine ⟨?_, ?_, h.first⟩
    · obtain ⟨name, _, _, _, hname, _⟩ := h.first
      obtain ⟨first, rest, hpath, _⟩ := exists_of_arrayTarget hname
      have hpath : path = first :: rest := hpath
      exact hpath ▸ List.cons_ne_nil first rest
    · rintro ⟨name, hname, target, htarget, hinitial, hne⟩
      exact hne (h.longest name hname target htarget hinitial)
  · rintro ⟨_, hlongest, hfirst⟩
    refine ⟨?_, hfirst⟩
    intro name hname target htarget hinitial
    by_contra hne
    exact hlongest ⟨name, hname, target, htarget, hinitial, hne⟩

/-- The values of a query string are nested as lists in lists where the first one at a chain of
keys is a single text and an explicit `[]` comes next. -/
theorem isFlat_expandArray_iff (queryString : Text) :
    ∃ expanded, expandArray (parse queryString) = some expanded ∧
      ((∀ path value, lookup expanded path = some value → value.IsFlat) ↔
        ∀ path, ¬ Nests (parseQuerystring queryString) path) := by
  have hraw := parsed_parse queryString
  obtain ⟨expanded, hexpanded, hshows⟩ := expandArray_shows hraw
  have hparam : ∀ write ∈ (inWriteOrder (parse queryString)).flatMap arrayWrites,
      write.2.IsParam := by
    intro write hwrite
    obtain ⟨entry, hentry, hwrite⟩ := List.mem_flatMap.mp hwrite
    exact hraw.isParam (mem_of_mem_inWriteOrder hentry) write hwrite
  refine ⟨expanded, hexpanded, ?_⟩
  rw [isFlat_iff_of_shows hshows hparam]
  apply forall_congr'
  intro path
  rw [nests_iff, not_and, not_and]

/-- `a=1&a[]=2`. -/
theorem nested_expandArray : ∃ expanded,
    expandArray (parse (urlencode [(['a'], ['1']), (['a', '[', ']'], ['2'])])) = some expanded ∧
      lookup expanded [['a']] = some (.list [.str ['1'], .list [.str ['2']]]) ∧
      ¬ ∀ path value, lookup expanded path = some value → value.IsFlat := by
  rw [LegacyWire.parse_urlencode (by decide) (by decide) (by decide)]
  refine ⟨[(['a'], .list [.str ['1'], .list [.str ['2']]])], rfl, rfl, ?_⟩
  intro hflat
  obtain ⟨s, hs⟩ := (hflat [['a']] _ rfl).2 (.list [.str ['2']]) (by simp)
  cases hs

end JuliaQueryString

end Swat4Stats
