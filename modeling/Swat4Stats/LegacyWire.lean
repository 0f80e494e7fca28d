import Swat4Stats.JuliaQueryString
import Mathlib.Data.List.Infix

/-!
# Both legacy wire formats decode to the tree that was encoded

A tree is flattened to its leaf paths, the items of a list numbered in order, and the paths are
written in brackets (the first version of the protocol) or with dots (the second). Decoding keeps
the raw keys that are still to come and the tree read so far in one dictionary, and the two never
meet: a raw key equals a key of the tree only if it is that leaf.
-/

namespace Swat4Stats

set_option autoImplicit false

inductive Tree where
  | leaf (value : Text)
  | dict (items : List (Text × Tree))
  | list (items : List Tree)

abbrev Leaf := List Text × Text

def index (i : ℕ) : Text := Nat.toDigits 10 i

def Leaf.under (key : Text) (l : Leaf) : Leaf := (key :: l.1, l.2)

mutual

def Tree.leaves : Tree → List Leaf
  | .leaf value => [([], value)]
  | .dict items => itemLeaves items
  | .list items => listLeaves 0 items

def itemLeaves : List (Text × Tree) → List Leaf
  | [] => []
  | (key, tree) :: items => tree.leaves.map (Leaf.under key) ++ itemLeaves items

def listLeaves (i : ℕ) : List Tree → List Leaf
  | [] => []
  | tree :: items => tree.leaves.map (Leaf.under (index i)) ++ listLeaves (i + 1) items

end

mutual

/-- The tree with each list replaced by the dict of its enumerated items. -/
def Tree.enumerated : Tree → Value
  | .leaf value => .str value
  | .dict items => .dict (enumeratedItems items)
  | .list items => .dict (enumeratedList 0 items)

def enumeratedItems : List (Text × Tree) → List (Text × Value)
  | [] => []
  | (key, tree) :: items => (key, tree.enumerated) :: enumeratedItems items

def enumeratedList (i : ℕ) : List Tree → List (Text × Value)
  | [] => []
  | tree :: items => (index i, tree.enumerated) :: enumeratedList (i + 1) items

end

structure IsKey (key : Text) : Prop where
  ne_nil : key ≠ []
  chars : ∀ c ∈ key, c ≠ '.' ∧ c ≠ '[' ∧ c ≠ ']' ∧ Text.isSpace c = false

inductive Tree.WellFormed : Tree → Prop
  | leaf (value : Text) : WellFormed (.leaf value)
  | dict {items : List (Text × Tree)} (hne : items ≠ []) (hnodup : (items.map Prod.fst).Nodup)
      (hkeys : ∀ item ∈ items, IsKey item.1) (htrees : ∀ item ∈ items, WellFormed item.2) :
      WellFormed (.dict items)
  | list {items : List Tree} (hne : items ≠ []) (htrees : ∀ tree ∈ items, WellFormed tree) :
      WellFormed (.list items)

/-- A root dict, which may be empty. -/
structure Document where
  items : List (Text × Tree)
  nodup : (items.map Prod.fst).Nodup
  keys : ∀ item ∈ items, IsKey item.1
  wellFormed : ∀ item ∈ items, item.2.WellFormed

def bracketKey : List Text → Text
  | [] => []
  | key :: keys => key ++ keys.flatMap fun key => '[' :: key ++ [']']

def dotKey (path : List Text) : Text := Text.join ['.'] path

def urlencode (params : List (Text × Text)) : Text :=
  Text.join ['&'] (params.map fun param =>
    Percent.quotePlus param.1 ++ '=' :: Percent.quotePlus param.2)

def toJuliaV1 (items : List (Text × Tree)) : Text :=
  urlencode ((itemLeaves items).map fun l => (bracketKey l.1, l.2))

def toJuliaV2 (items : List (Text × Tree)) : Text :=
  urlencode ((itemLeaves items).map fun l => (dotKey l.1, l.2))

namespace LegacyWire

open JuliaQueryString

def enumerate (i : ℕ) : List Tree → List (Text × Tree)
  | [] => []
  | tree :: items => (index i, tree) :: enumerate (i + 1) items

theorem listLeaves_eq (i : ℕ) (items : List Tree) :
    listLeaves i items = itemLeaves (enumerate i items) := by
  induction items generalizing i with
  | nil => rfl
  | cons tree items ih => simp [listLeaves, enumerate, itemLeaves, ih]

theorem enumeratedList_eq (i : ℕ) (items : List Tree) :
    enumeratedList i items = enumeratedItems (enumerate i items) := by
  induction items generalizing i with
  | nil => rfl
  | cons tree items ih => simp [enumeratedList, enumerate, enumeratedItems, ih]

theorem index_injective {i j : ℕ} (h : index i = index j) : i = j := Text.toDigits_inj h

theorem isKey_index (i : ℕ) : IsKey (index i) := by
  refine ⟨Nat.toDigits_ne_nil, ?_⟩
  intro c hc
  have hrange := Text.range_of_isDigit (Text.isDigit_of_mem_toDigits hc)
  refine ⟨?_, ?_, ?_, ?_⟩
  · rintro rfl
    revert hrange
    decide
  · rintro rfl
    revert hrange
    decide
  · rintro rfl
    revert hrange
    decide
  · simp only [Text.isSpace, decide_eq_false_iff_not]
    omega

theorem mem_enumerate {i : ℕ} {items : List Tree} {item : Text × Tree}
    (h : item ∈ enumerate i items) : (∃ j, i ≤ j ∧ item.1 = index j) ∧ item.2 ∈ items := by
  induction items generalizing i with
  | nil => cases h
  | cons tree items ih =>
    obtain rfl | h := List.mem_cons.mp h
    · exact ⟨⟨i, le_rfl, rfl⟩, by simp⟩
    · obtain ⟨⟨j, hj, hkey⟩, hmem⟩ := ih h
      exact ⟨⟨j, by omega, hkey⟩, by simp [hmem]⟩

theorem nodup_enumerate (i : ℕ) (items : List Tree) :
    ((enumerate i items).map Prod.fst).Nodup := by
  induction items generalizing i with
  | nil => simp [enumerate]
  | cons tree items ih =>
    simp only [enumerate, List.map_cons, List.nodup_cons]
    refine ⟨?_, ih (i + 1)⟩
    intro hmem
    obtain ⟨item, hitem, hkey⟩ := List.mem_map.mp hmem
    obtain ⟨⟨j, hj, hitemKey⟩, _⟩ := mem_enumerate hitem
    have hij := index_injective (hkey.symm.trans hitemKey)
    omega

theorem leaves_list (items : List Tree) :
    (Tree.list items).leaves = itemLeaves (enumerate 0 items) := by
  rw [Tree.leaves, listLeaves_eq]

theorem enumerated_list (items : List Tree) :
    (Tree.list items).enumerated = .dict (enumeratedItems (enumerate 0 items)) := by
  rw [Tree.enumerated, enumeratedList_eq]

theorem enumerate_ne_nil {items : List Tree} (h : items ≠ []) : enumerate 0 items ≠ [] := by
  cases items with
  | nil => exact absurd rfl h
  | cons tree items => simp [enumerate]

theorem mem_itemLeaves {items : List (Text × Tree)} {l : Leaf} (h : l ∈ itemLeaves items) :
    ∃ item ∈ items, ∃ m ∈ item.2.leaves, l = m.under item.1 := by
  induction items with
  | nil => cases h
  | cons item items ih =>
    obtain ⟨key, tree⟩ := item
    rw [itemLeaves, List.mem_append] at h
    obtain h | h := h
    · obtain ⟨m, hm, rfl⟩ := List.mem_map.mp h
      exact ⟨(key, tree), by simp, m, hm, rfl⟩
    · obtain ⟨item, hitem, m, hm, rfl⟩ := ih h
      exact ⟨item, by simp [hitem], m, hm, rfl⟩

/-- What the paths of a tree are made of, how they differ, and when there is only the empty one. -/
structure GoodLeaves (leaves : List Leaf) : Prop where
  ne_nil : leaves ≠ []
  keys : ∀ l ∈ leaves, ∀ key ∈ l.1, IsKey key
  nodup : (leaves.map Prod.fst).Nodup
  single : ∀ l ∈ leaves, l.1 = [] → leaves = [l]

theorem nodup_itemLeaves {items : List (Text × Tree)} (hnodup : (items.map Prod.fst).Nodup)
    (htrees : ∀ item ∈ items, GoodLeaves item.2.leaves) :
    ((itemLeaves items).map Prod.fst).Nodup := by
  induction items with
  | nil => simp [itemLeaves]
  | cons item items ih =>
    obtain ⟨key, tree⟩ := item
    obtain ⟨hkey, hnodup⟩ := List.nodup_cons.mp hnodup
    rw [itemLeaves, List.map_append, List.nodup_append]
    refine ⟨?_, ih hnodup fun item hitem => htrees item (by simp [hitem]), ?_⟩
    · have htree := (htrees (key, tree) (by simp)).nodup
      have hmap : (tree.leaves.map (Leaf.under key)).map Prod.fst =
          (tree.leaves.map Prod.fst).map (key :: ·) := by
        simp [Leaf.under]
      rw [hmap]
      exact htree.map fun _ _ h => (List.cons.inj h).2
    · intro path hpath path' hpath'
      obtain ⟨l, hl, rfl⟩ := List.mem_map.mp hpath
      obtain ⟨m, _, rfl⟩ := List.mem_map.mp hl
      obtain ⟨l', hl', rfl⟩ := List.mem_map.mp hpath'
      obtain ⟨item, hitem, m', _, rfl⟩ := mem_itemLeaves hl'
      intro heq
      have hsame : key = item.1 := (List.cons.inj heq).1
      exact hkey (List.mem_map.mpr ⟨item, hitem, hsame.symm⟩)

theorem goodLeaves_items {items : List (Text × Tree)} (hne : items ≠ [])
    (hnodup : (items.map Prod.fst).Nodup) (hkeys : ∀ item ∈ items, IsKey item.1)
    (htrees : ∀ item ∈ items, GoodLeaves item.2.leaves) : GoodLeaves (itemLeaves items) := by
  refine ⟨?_, ?_, nodup_itemLeaves hnodup htrees, ?_⟩
  · obtain ⟨⟨key, tree⟩, items, rfl⟩ := List.exists_cons_of_ne_nil hne
    have htree := (htrees (key, tree) (by simp)).ne_nil
    simpa [itemLeaves] using fun hnil => absurd hnil htree
  · intro l hl k hk
    obtain ⟨item, hitem, m, hm, rfl⟩ := mem_itemLeaves hl
    obtain rfl | hk := List.mem_cons.mp hk
    · exact hkeys item hitem
    · exact (htrees item hitem).keys m hm k hk
  · intro l hl hnil
    obtain ⟨item, _, m, _, rfl⟩ := mem_itemLeaves hl
    cases hnil

theorem wellFormed_enumerate {items : List Tree} (h : ∀ tree ∈ items, GoodLeaves tree.leaves)
    (hne : items ≠ []) : GoodLeaves (itemLeaves (enumerate 0 items)) := by
  refine goodLeaves_items (enumerate_ne_nil hne) (nodup_enumerate 0 items) ?_ ?_
  · intro item hitem
    obtain ⟨⟨j, _, hkey⟩, _⟩ := mem_enumerate hitem
    rw [hkey]
    exact isKey_index j
  · intro item hitem
    exact h item.2 (mem_enumerate hitem).2

theorem goodLeaves {tree : Tree} (h : tree.WellFormed) : GoodLeaves tree.leaves := by
  induction h with
  | leaf value =>
    rw [Tree.leaves]
    exact ⟨by simp, by simp, by simp, by simp⟩
  | dict hne hnodup hkeys _ ih =>
    rw [Tree.leaves]
    exact goodLeaves_items hne hnodup hkeys ih
  | list hne _ ih =>
    rw [leaves_list]
    exact wellFormed_enumerate ih hne

def insertLeaf (d : Dict) (l : Leaf) : Dict := setComplexKeyItem d l.1 (.str l.2)

theorem setComplexKeyItem_append {d e : Dict} {key : Text} (keys : List Text) {value : Value}
    (h : key ∉ OrderedDict.keys d) :
    setComplexKeyItem (d ++ e) (key :: keys) value =
      d ++ setComplexKeyItem e (key :: keys) value := by
  cases keys with
  | nil =>
    simp only [setComplexKeyItem, setItem, OrderedDict.get?_append_of_not_mem h]
    cases hget : OrderedDict.get? e key with
    | none => exact OrderedDict.set_append_of_not_mem h
    | some item =>
      cases item with
      | str => exact OrderedDict.set_append_of_not_mem h
      | dict => rfl
      | list => cases value <;> exact OrderedDict.set_append_of_not_mem h
  | cons next keys =>
    have hnested : nestedDict (d ++ e) key = nestedDict e key := by
      simp only [nestedDict, OrderedDict.get?_append_of_not_mem h]
    simp only [setComplexKeyItem, hnested]
    exact OrderedDict.set_append_of_not_mem h

theorem insertLeaf_under {d sub : Dict} {key : Text} (h : key ∉ OrderedDict.keys d) {l : Leaf}
    (hl : l.1 ≠ []) :
    insertLeaf (d ++ [(key, .dict sub)]) (l.under key) =
      d ++ [(key, .dict (insertLeaf sub l))] := by
  obtain ⟨path, value⟩ := l
  obtain ⟨next, keys, rfl⟩ := List.exists_cons_of_ne_nil hl
  simp [insertLeaf, Leaf.under, setComplexKeyItem, nestedDict, OrderedDict.get?_concat_self h,
    OrderedDict.set_concat_self h]

theorem foldl_insertLeaf_under {d sub : Dict} {key : Text} (h : key ∉ OrderedDict.keys d)
    {leaves : List Leaf} (hleaves : ∀ l ∈ leaves, l.1 ≠ []) :
    (leaves.map (Leaf.under key)).foldl insertLeaf (d ++ [(key, .dict sub)]) =
      d ++ [(key, .dict (leaves.foldl insertLeaf sub))] := by
  induction leaves generalizing sub with
  | nil => rfl
  | cons l leaves ih =>
    rw [List.map_cons, List.foldl_cons, insertLeaf_under h (hleaves l (by simp)),
      ih fun l hl => hleaves l (by simp [hl])]
    rfl

/-- The first leaf under a new key creates the dict that the others find. -/
theorem foldl_insertLeaf_new {d : Dict} {key : Text} (h : key ∉ OrderedDict.keys d)
    {leaves : List Leaf} (hne : leaves ≠ []) (hleaves : ∀ l ∈ leaves, l.1 ≠ []) :
    (leaves.map (Leaf.under key)).foldl insertLeaf d =
      d ++ [(key, .dict (leaves.foldl insertLeaf []))] := by
  obtain ⟨⟨path, value⟩, leaves, rfl⟩ := List.exists_cons_of_ne_nil hne
  obtain ⟨next, keys, rfl⟩ : ∃ next keys, path = next :: keys :=
    List.exists_cons_of_ne_nil (hleaves (path, value) (by simp))
  have hfirst : insertLeaf d (Leaf.under key (next :: keys, value)) =
      d ++ [(key, .dict (insertLeaf [] (next :: keys, value)))] := by
    have hget : OrderedDict.get? d key = none := OrderedDict.get?_eq_none_iff.mpr h
    simp [insertLeaf, Leaf.under, setComplexKeyItem, nestedDict, hget,
      OrderedDict.set_of_not_mem h]
  rw [List.map_cons, List.foldl_cons, hfirst,
    foldl_insertLeaf_under h fun l hl => hleaves l (by simp [hl])]
  rfl

/-- Writing the leaves of a tree under a new key adds the enumerated tree under that key. -/
def Builds (tree : Tree) : Prop :=
  ∀ (d : Dict) (key : Text), key ∉ OrderedDict.keys d →
    (tree.leaves.map (Leaf.under key)).foldl insertLeaf d = d ++ [(key, tree.enumerated)]

theorem foldl_itemLeaves {items : List (Text × Tree)} {d : Dict}
    (hnodup : (OrderedDict.keys d ++ items.map Prod.fst).Nodup)
    (htrees : ∀ item ∈ items, Builds item.2) :
    (itemLeaves items).foldl insertLeaf d = d ++ enumeratedItems items := by
  induction items generalizing d with
  | nil => simp [itemLeaves, enumeratedItems]
  | cons item items ih =>
    obtain ⟨key, tree⟩ := item
    have hkey : key ∉ OrderedDict.keys d := by
      intro hmem
      exact (List.nodup_append.mp hnodup).2.2 key hmem key (by simp) rfl
    have hnext :
        (OrderedDict.keys (d ++ [(key, tree.enumerated)]) ++ items.map Prod.fst).Nodup := by
      simpa [OrderedDict.keys] using hnodup
    rw [itemLeaves, List.foldl_append, htrees (key, tree) (by simp) d key hkey,
      ih hnext fun item hitem => htrees item (by simp [hitem])]
    simp [enumeratedItems]

theorem builds_dict {items : List (Text × Tree)} (hgood : GoodLeaves (itemLeaves items))
    (hnodup : (items.map Prod.fst).Nodup) (htrees : ∀ item ∈ items, Builds item.2) {d : Dict}
    {key : Text} (hkey : key ∉ OrderedDict.keys d) :
    ((itemLeaves items).map (Leaf.under key)).foldl insertLeaf d =
      d ++ [(key, .dict (enumeratedItems items))] := by
  have hpaths : ∀ l ∈ itemLeaves items, l.1 ≠ [] := by
    intro l hl
    obtain ⟨item, _, m, _, rfl⟩ := mem_itemLeaves hl
    simp [Leaf.under]
  rw [foldl_insertLeaf_new hkey hgood.ne_nil hpaths,
    foldl_itemLeaves (by simpa [OrderedDict.keys] using hnodup) htrees, List.nil_append]

theorem builds {tree : Tree} (h : tree.WellFormed) : Builds tree := by
  induction h with
  | leaf value =>
    intro d key hkey
    have hget : OrderedDict.get? d key = none := OrderedDict.get?_eq_none_iff.mpr hkey
    simp [Tree.leaves, Tree.enumerated, insertLeaf, Leaf.under, setComplexKeyItem, setItem, hget,
      OrderedDict.set_of_not_mem hkey]
  | @dict items hne hnodup hkeys htrees ih =>
    intro d key hkey
    have hgood := goodLeaves_items hne hnodup hkeys fun item hitem => goodLeaves (htrees item hitem)
    rw [Tree.leaves, Tree.enumerated]
    exact builds_dict hgood hnodup ih hkey
  | @list items hne htrees ih =>
    intro d key hkey
    have hgood := wellFormed_enumerate (fun tree hmem => goodLeaves (htrees tree hmem)) hne
    rw [leaves_list, enumerated_list]
    exact builds_dict hgood (nodup_enumerate 0 items)
      (fun item hitem => ih item.2 (mem_enumerate hitem).2) hkey

theorem dotComponents_dotKey {path : List Text} (hne : path ≠ [])
    (hkeys : ∀ key ∈ path, IsKey key) : dotComponents (dotKey path) = path := by
  have hsplit : Text.split ['.'] (dotKey path) = path :=
    Text.split_join hne fun key hkey hdot => ((hkeys key hkey).chars '.' hdot).1 rfl
  have hstrip : path.map Text.strip = path := by
    conv_rhs => rw [← List.map_id path]
    apply List.map_congr_left
    intro key hkey
    exact Text.stripBy_of_forall_not fun c hc => ((hkeys key hkey).chars c hc).2.2.2
  rw [dotComponents, hsplit, hstrip, List.filter_eq_self]
  intro key hkey
  simpa using (hkeys key hkey).ne_nil

def brackets (keys : List Text) : Text := keys.flatMap fun key => '[' :: key ++ [']']

theorem brackets_cons (key : Text) (keys : List Text) :
    brackets (key :: keys) = '[' :: (key ++ [']'] ++ brackets keys) := by
  simp [brackets]

theorem head?_brackets (keys : List Text) : ∀ c ∈ (brackets keys).head?, c = '[' := by
  cases keys with
  | nil => simp [brackets]
  | cons key keys => simp [brackets_cons]

theorem brackets_eq_join (key : Text) (keys : List Text) :
    brackets (key :: keys) = '[' :: (Text.join [']', '['] (key :: keys) ++ [']']) := by
  induction keys generalizing key with
  | nil => simp [brackets, Text.join_singleton]
  | cons next keys ih =>
    rw [brackets_cons, ih next, Text.join_cons_cons]
    simp

/-- The class of a subkey also reads the closing bracket and gives it back. -/
theorem head?_subkeyPattern {key rest : Text} (groups : List (String × Text)) (hkey : IsKey key)
    (hrest : ∀ c ∈ rest.head?, c = '[') :
    (subkeyPattern.results ⟨'[' :: (key ++ [']'] ++ rest), groups⟩).head? =
      some ⟨rest, groups⟩ := by
  refine Regex.head?_seq (?_ : _ = some ⟨key ++ [']'] ++ rest, groups⟩) ?_
  · simp [Regex.results_lit]
  obtain ⟨c, key, rfl⟩ := List.exists_cons_of_ne_nil hkey.ne_nil
  have hc : c ≠ '[' := (hkey.chars c (by simp)).2.1
  have hclass : ∀ d ∈ key ++ [']'], decide (d ≠ '[') = true := by
    intro d hd
    obtain hd | hd := List.mem_append.mp hd
    · simpa using (hkey.chars d (by simp [hd])).2.1
    · obtain rfl : d = ']' := by simpa using hd
      decide
  have hstop : ∀ d ∈ rest.head?, decide (d ≠ '[') = false := by
    intro d hd
    simpa using hrest d hd
  have htails : (key ++ [']']).tails.reverse =
      [] :: (key.tails.map (· ++ [']'])).reverse := by
    simp [List.tails_append]
  have hresults : (Regex.plus (.set (· ≠ '['))).results ⟨c :: key ++ [']'] ++ rest, groups⟩ =
      ⟨rest, groups⟩ :: (key.tails.map (· ++ [']'])).reverse.map fun tail =>
        ⟨tail ++ rest, groups⟩ := by
    have hset : (Regex.set (· ≠ '[')).results ⟨c :: key ++ [']'] ++ rest, groups⟩ =
        [⟨key ++ [']'] ++ rest, groups⟩] := by
      simp [Regex.results, hc]
    rw [Regex.plus, Regex.results, hset, List.flatMap_singleton,
      Regex.results_star_set groups hclass hstop, htails]
    rfl
  have hclose : (Regex.lit ']').results ⟨rest, groups⟩ = [] := by
    cases rest with
    | nil => rfl
    | cons d rest =>
      obtain rfl : d = '[' := hrest d (by simp)
      simp [Regex.results_lit]
  rw [Regex.results, hresults, List.flatMap_cons, hclose, List.nil_append]
  refine Regex.head?_flatMap (?_ : _ = some ⟨[']'] ++ rest, groups⟩) ?_
  · simp [List.head?_reverse, Regex.getLast?_tails]
  · simp [Regex.results_lit]

theorem head?_star_subkeyPattern (groups : List (String × Text)) {keys : List Text}
    (hkeys : ∀ key ∈ keys, IsKey key) :
    ((Regex.star subkeyPattern).results ⟨brackets keys, groups⟩).head? = some ⟨[], groups⟩ := by
  induction keys with
  | nil =>
    rw [Regex.results_star_of_nil]
    · rfl
    · exact Regex.results_seq_of_nil rfl
  | cons key keys ih =>
    rw [brackets_cons]
    refine Regex.head?_star
      (head?_subkeyPattern groups (hkeys key (by simp)) (head?_brackets keys)) ?_
      (ih fun key hkey => hkeys key (by simp [hkey]))
    simp
    omega

theorem matchAt_bracketKey {key : Text} {keys : List Text}
    (hkeys : ∀ k ∈ key :: keys, IsKey k) :
    ∃ matched, arrayPattern.matchAt (bracketKey (key :: keys)) = some matched ∧
      arrayComponents matched = key :: keys ∧ matched.groups.lookup "listkey" = none := by
  have hkey : IsKey key := hkeys key (by simp)
  have hgroup : ((Regex.group "key" (.plus (.set fun c => !isBracket c))).results
      ⟨key ++ brackets keys, []⟩).head? = some ⟨brackets keys, [("key", key)]⟩ := by
    rw [← Regex.capture_append "key" key (brackets keys) [] []]
    apply Regex.head?_group
    apply Regex.head?_plus_set [] hkey.ne_nil
    · intro c hc
      obtain ⟨_, hopen, hclose, _⟩ := hkey.chars c hc
      simp [isBracket, hopen, hclose]
    · intro c hc
      obtain rfl := head?_brackets keys c hc
      rfl
  have hlistkey : ∀ groups : List (String × Text),
      ((Regex.seq (.opt (.group "listkey" (.seq (.lit '[') (.lit ']')))) .endOfText).results
        ⟨[], groups⟩).head? = some ⟨[], groups⟩ := by
    intro groups
    rfl
  cases keys with
  | nil =>
    refine ⟨⟨[], [("key", key)]⟩, ?_, rfl, rfl⟩
    refine Regex.head?_seq hgroup (Regex.head?_seq ?_ (hlistkey _))
    rw [Regex.results_opt_of_nil]
    · rfl
    · exact Regex.results_group_of_nil (Regex.results_seq_of_nil (Regex.results_seq_of_nil rfl))
  | cons next keys =>
    have hnext : ∀ k ∈ next :: keys, IsKey k := fun k hk => hkeys k (List.mem_cons_of_mem _ hk)
    refine ⟨⟨[], [("dictkeys", brackets (next :: keys)), ("key", key)]⟩, ?_, ?_, rfl⟩
    · refine Regex.head?_seq hgroup (Regex.head?_seq (Regex.head?_opt ?_) (hlistkey _))
      have hcapture := Regex.capture_append "dictkeys" (brackets (next :: keys)) []
        [("key", key)] [("key", key)]
      rw [List.append_nil] at hcapture
      rw [← hcapture]
      apply Regex.head?_group
      rw [brackets_cons]
      exact Regex.head?_seq
        (head?_subkeyPattern _ (hnext next (by simp)) (head?_brackets keys))
        (head?_star_subkeyPattern _ fun k hk => hnext k (by simp [hk]))
    · have hinner : ((brackets (next :: keys)).drop 1).dropLast =
          Text.join [']', '['] (next :: keys) := by
        simp [brackets_eq_join]
      have hsplit : Text.split [']', '['] (Text.join [']', '['] (next :: keys)) = next :: keys :=
        Text.split_join (by simp) fun k hk hclose => ((hnext k hk).chars ']' hclose).2.2.1 rfl
      change key :: Text.split [']', '['] ((brackets (next :: keys)).drop 1).dropLast = _
      rw [hinner, hsplit]

def encodeParam (param : Text × Text) : Text :=
  Percent.quotePlus param.1 ++ '=' :: Percent.quotePlus param.2

theorem encodeParam_ne_nil (param : Text × Text) : encodeParam param ≠ [] := by
  simp [encodeParam]

theorem amp_not_mem_encodeParam (param : Text × Text) : '&' ∉ encodeParam param := by
  simp only [encodeParam, List.mem_append, List.mem_cons, not_or]
  refine ⟨?_, by decide, ?_⟩
  · exact fun h => (Percent.quotePlus_chars _ _ h).2.1 rfl
  · exact fun h => (Percent.quotePlus_chars _ _ h).2.1 rfl

theorem head?_join {sep part : Text} {parts : List Text} (hpart : part ≠ []) :
    (Text.join sep (part :: parts)).head? = part.head? := by
  obtain ⟨c, part, rfl⟩ := List.exists_cons_of_ne_nil hpart
  cases parts with
  | nil => simp [Text.join_singleton]
  | cons next parts => simp [Text.join_cons_cons]

theorem join_ne_nil {sep part : Text} {parts : List Text} (hpart : part ≠ []) :
    Text.join sep (part :: parts) ≠ [] := by
  intro hnil
  have hhead := @head?_join sep part parts hpart
  rw [hnil] at hhead
  exact hpart (List.head?_eq_none_iff.mp hhead.symm)

theorem getLast?_join {sep part : Text} {parts : List Text}
    (hparts : ∀ p ∈ part :: parts, p ≠ []) :
    ∃ p ∈ part :: parts, (Text.join sep (part :: parts)).getLast? = p.getLast? := by
  induction parts generalizing part with
  | nil => exact ⟨part, by simp, by simp [Text.join_singleton]⟩
  | cons next parts ih =>
    obtain ⟨p, hp, hlast⟩ := ih fun p hp => hparts p (List.mem_cons_of_mem _ hp)
    refine ⟨p, by simp only [List.mem_cons] at hp ⊢; exact .inr hp, ?_⟩
    rw [← hlast, Text.join_cons_cons, List.getLast?_append_of_ne_nil]
    exact join_ne_nil (hparts next (by simp))

theorem stripBy_urlencode {params : List (Text × Text)} :
    Text.stripBy (· = '&') (Text.join ['&'] (params.map encodeParam)) =
      Text.join ['&'] (params.map encodeParam) := by
  have hedge : ∀ param : Text × Text, ∀ c ∈ encodeParam param, decide (c = '&') = false := by
    intro param c hc
    simpa using fun hamp : c = '&' => amp_not_mem_encodeParam param (hamp ▸ hc)
  cases params with
  | nil => rfl
  | cons param params =>
    rw [List.map_cons]
    apply Text.stripBy_eq_self
    · intro c hc
      rw [head?_join (encodeParam_ne_nil param)] at hc
      exact hedge param c (List.mem_of_mem_head? hc)
    · intro c hc
      obtain ⟨p, hp, hlast⟩ := @getLast?_join ['&'] (encodeParam param) (params.map encodeParam) (by
        intro p hp
        rw [← List.map_cons] at hp
        obtain ⟨param, _, rfl⟩ := List.mem_map.mp hp
        exact encodeParam_ne_nil param)
      rw [hlast] at hc
      rw [← List.map_cons] at hp
      obtain ⟨param, _, rfl⟩ := List.mem_map.mp hp
      exact hedge param c (List.mem_of_mem_getLast? hc)

/-- The strip of `=` removes the separator of an empty value and nothing else. -/
theorem parseParam_encodeParam {param : Text × Text} (hname : param.1 ≠ []) :
    parseParam (encodeParam param) = param := by
  obtain ⟨name, value⟩ := param
  have heq : ∀ s : Text, '=' ∉ Percent.quotePlus s := fun s h =>
    (Percent.quotePlus_chars _ _ h).2.2 rfl
  have hedge : ∀ s : Text, ∀ c ∈ Percent.quotePlus s, decide (c = '=') = false := by
    intro s c hc
    simpa using fun heqc : c = '=' => heq s (heqc ▸ hc)
  have hquote := Percent.quotePlus_ne_nil hname
  obtain ⟨c, rest, hcons⟩ := List.exists_cons_of_ne_nil hquote
  cases value with
  | nil =>
    have hstrip : Text.stripBy (· = '=') (Percent.quotePlus name ++ ['=']) =
        Percent.quotePlus name := by
      have hself := Text.stripBy_of_forall_not (hedge name)
      have hdrop : ((Percent.quotePlus name ++ ['=']).dropWhile (· = '=')) =
          Percent.quotePlus name ++ ['='] := by
        have hc := hedge name c (by simp [hcons])
        rw [hcons, List.cons_append, List.dropWhile_cons_of_neg (by simpa using hc)]
      have hdropSelf : ((Percent.quotePlus name).dropWhile (· = '=')) = Percent.quotePlus name := by
        have hc := hedge name c (by simp [hcons])
        rw [hcons, List.dropWhile_cons_of_neg (by simpa using hc)]
      rw [Text.stripBy, hdropSelf] at hself
      rw [Text.stripBy, hdrop, List.rdropWhile_concat_pos _ _ _ (by simp), hself]
    simp only [parseParam, encodeParam, Percent.quotePlus_nil, hstrip,
      Text.splitFirst_of_not_mem (heq name), Percent.unquotePlus_quotePlus, Option.elim_none]
  | cons d value =>
    have hvalue : Percent.quotePlus (d :: value) ≠ [] := Percent.quotePlus_ne_nil (by simp)
    have hstrip :
        Text.stripBy (· = '=') (Percent.quotePlus name ++ '=' :: Percent.quotePlus (d :: value)) =
        Percent.quotePlus name ++ '=' :: Percent.quotePlus (d :: value) := by
      apply Text.stripBy_eq_self
      · intro b hb
        rw [List.head?_append_of_ne_nil _ hquote] at hb
        exact hedge name b (List.mem_of_mem_head? hb)
      · intro b hb
        have hlast : (Percent.quotePlus name ++ '=' :: Percent.quotePlus (d :: value)).getLast? =
            (Percent.quotePlus (d :: value)).getLast? := by
          rw [List.append_cons, List.getLast?_append_of_ne_nil _ hvalue]
        rw [hlast] at hb
        exact hedge (d :: value) b (List.mem_of_mem_getLast? hb)
    simp only [parseParam, encodeParam, hstrip, Text.splitFirst_append (heq name),
      Percent.unquotePlus_quotePlus, Option.elim_some]

theorem parseQuerystring_urlencode {params : List (Text × Text)} (hne : params ≠ [])
    (hnames : ∀ param ∈ params, param.1 ≠ []) : parseQuerystring (urlencode params) = params := by
  have hencode : urlencode params = Text.join ['&'] (params.map encodeParam) := rfl
  have hsplit : Text.split ['&'] (Text.join ['&'] (params.map encodeParam)) =
      params.map encodeParam := by
    apply Text.split_join (by simpa using hne)
    intro part hpart
    obtain ⟨param, _, rfl⟩ := List.mem_map.mp hpart
    exact amp_not_mem_encodeParam param
  rw [parseQuerystring, hencode, stripBy_urlencode, hsplit, List.map_map]
  conv_rhs => rw [← List.map_id params]
  apply List.map_congr_left
  intro param hparam
  exact parseParam_encodeParam (hnames param hparam)

def rawItem (param : Text × Text) : Text × Value := (param.1, .str param.2)

theorem foldl_addParam {params : List (Text × Text)} {d : Dict}
    (hnames : ∀ param ∈ params, param.1 ≠ [])
    (hnodup : (OrderedDict.keys d ++ params.map Prod.fst).Nodup) :
    params.foldl addParam d = d ++ params.map rawItem := by
  induction params generalizing d with
  | nil => simp
  | cons param params ih =>
    have hkey : param.1 ∉ OrderedDict.keys d := by
      intro hmem
      exact (List.nodup_append.mp hnodup).2.2 param.1 hmem param.1 (by simp) rfl
    have hstep : addParam d param = d ++ [rawItem param] := by
      simp only [addParam, if_neg (hnames param (by simp)), OrderedDict.get?_eq_none_iff.mpr hkey,
        OrderedDict.set_of_not_mem hkey]
      rfl
    rw [List.foldl_cons, hstep, ih fun p hp => hnames p (by simp [hp])]
    · simp
    · simpa [OrderedDict.keys, rawItem] using hnodup

theorem parse_urlencode {params : List (Text × Text)} (hne : params ≠ [])
    (hnames : ∀ param ∈ params, param.1 ≠ []) (hnodup : (params.map Prod.fst).Nodup) :
    parse (urlencode params) = params.map rawItem := by
  rw [parse, parseQuerystring_urlencode hne hnames,
    foldl_addParam hnames (by simpa [OrderedDict.keys] using hnodup), List.nil_append]

/-- A raw key still to come is not the first key of a leaf that comes before it. -/
def Apart (l m : Leaf) : Prop := ∀ key, l.1.head? = some key → m.1 ≠ [key]

theorem pairwise_apart {items : List (Text × Tree)} (hnodup : (items.map Prod.fst).Nodup)
    (htrees : ∀ item ∈ items, GoodLeaves item.2.leaves) : (itemLeaves items).Pairwise Apart := by
  induction items with
  | nil => exact List.Pairwise.nil
  | cons item items ih =>
    obtain ⟨key, tree⟩ := item
    obtain ⟨hkey, hnodup⟩ := List.nodup_cons.mp hnodup
    rw [itemLeaves, List.pairwise_append]
    refine ⟨?_, ih hnodup fun item hitem => htrees item (by simp [hitem]), ?_⟩
    · have hgood := htrees (key, tree) (by simp)
      obtain ⟨l, hl, hnil⟩ | hpaths := Decidable.em (∃ l ∈ tree.leaves, l.1 = [])
      · have hsingle : tree.leaves = [l] := hgood.single l hl hnil
        rw [hsingle]
        exact List.pairwise_singleton _ _
      · rw [List.pairwise_map]
        apply List.pairwise_of_forall_mem_list
        intro l _ m hm k _ hsame
        exact hpaths ⟨m, hm, (List.cons.inj hsame).2⟩
    · intro l hl m hm k hk hsame
      obtain ⟨l, _, rfl⟩ := List.mem_map.mp hl
      obtain ⟨item, hitem, m, _, rfl⟩ := mem_itemLeaves hm
      have hkeyk : key = k := by simpa [Leaf.under] using hk
      have hitemk : item.1 = k := (List.cons.inj hsame).1
      exact hkey (List.mem_map.mpr ⟨item, hitem, hitemk.trans hkeyk.symm⟩)

section Expand

variable (rawKey : List Text → Text) (write : Dict → Text → Value → Dict)

/-- `write` undoes `rawKey`: it stores the item of a raw key under the path of the leaf. -/
structure Decodes : Prop where
  write : ∀ path, path ≠ [] → (∀ key ∈ path, IsKey key) → ∀ d value,
    write d (rawKey path) (.str value) = insertLeaf d (path, value)
  single : ∀ key, rawKey [key] = key
  injective : ∀ path path', path ≠ [] → path' ≠ [] → (∀ key ∈ path, IsKey key) →
    (∀ key ∈ path', IsKey key) → rawKey path = rawKey path' → path = path'

variable {rawKey write}

/-- Raw items and finished tree share the dict: the loop takes the first raw item away and adds
its leaf to the tree behind the others. -/
theorem foldlM_expand (hdecodes : Decodes rawKey write) {leaves : List Leaf} (d : Dict)
    (hne : ∀ l ∈ leaves, l.1 ≠ []) (hkeys : ∀ l ∈ leaves, ∀ key ∈ l.1, IsKey key)
    (hapart : leaves.Pairwise Apart) :
    (OrderedDict.keys (leaves.map fun l => rawItem (rawKey l.1, l.2))).foldlM (fun d key =>
        (OrderedDict.get? d key).map fun value => write (OrderedDict.erase d key) key value)
        (leaves.map (fun l => rawItem (rawKey l.1, l.2)) ++ d) =
      some (leaves.foldl insertLeaf d) := by
  induction leaves generalizing d with
  | nil => rfl
  | cons l leaves ih =>
    obtain ⟨path, value⟩ := l
    have hpath : path ≠ [] := hne (path, value) (by simp)
    have hpathKeys : ∀ key ∈ path, IsKey key := hkeys (path, value) (by simp)
    obtain ⟨key, keys, rfl⟩ := List.exists_cons_of_ne_nil hpath
    obtain ⟨hfirst, hapart⟩ := List.pairwise_cons.mp hapart
    have hfresh : key ∉ OrderedDict.keys (leaves.map fun l => rawItem (rawKey l.1, l.2)) := by
      intro hmem
      obtain ⟨_, hraw, hkey⟩ := List.mem_map.mp hmem
      obtain ⟨m, hm, rfl⟩ := List.mem_map.mp hraw
      have hsame : m.1 = [key] := by
        apply hdecodes.injective m.1 [key] (hne m (by simp [hm])) (by simp)
        · exact hkeys m (by simp [hm])
        · intro k hk
          obtain rfl : k = key := by simpa using hk
          exact hpathKeys k (by simp)
        · rw [hdecodes.single]
          exact hkey
      exact hfirst m hm key rfl hsame
    have hstep : insertLeaf (leaves.map (fun l => rawItem (rawKey l.1, l.2)) ++ d)
          (key :: keys, value) =
        leaves.map (fun l => rawItem (rawKey l.1, l.2)) ++ insertLeaf d (key :: keys, value) :=
      setComplexKeyItem_append keys hfresh
    have hcons : OrderedDict.keys (((key :: keys, value) :: leaves).map
          fun l => rawItem (rawKey l.1, l.2)) =
        rawKey (key :: keys) :: OrderedDict.keys (leaves.map fun l => rawItem (rawKey l.1, l.2)) :=
      rfl
    rw [hcons, List.foldlM_cons, List.map_cons, List.cons_append]
    simp only [rawItem, OrderedDict.get?_cons_self, OrderedDict.erase_cons_self, Option.map_some,
      Option.bind_eq_bind, Option.bind_some, List.foldl_cons]
    simp only [rawItem] at hstep
    rw [hdecodes.write _ hpath hpathKeys, hstep]
    exact ih _ (fun l hl => hne l (by simp [hl])) (fun l hl => hkeys l (by simp [hl])) hapart

end Expand

theorem decodes_dotKey : Decodes dotKey fun d key value =>
    match dotComponents key with
    | [] => d
    | components => setComplexKeyItem d components value := by
  refine ⟨?_, ?_, ?_⟩
  · intro path hne hkeys d value
    obtain ⟨key, keys, rfl⟩ := List.exists_cons_of_ne_nil hne
    simp only [dotComponents_dotKey hne hkeys]
    rfl
  · intro key
    exact Text.join_singleton _ _
  · intro path path' hne hne' hkeys hkeys' h
    rw [← dotComponents_dotKey hne hkeys, h, dotComponents_dotKey hne' hkeys']

theorem decodes_bracketKey : Decodes bracketKey fun d key dictValue =>
    match arrayPattern.matchAt key with
    | none => d
    | some matched =>
      (arrayValues dictValue).foldl (fun d value =>
        setComplexKeyItem d (arrayComponents matched)
          (if (matched.groups.lookup "listkey").isSome then .list [value] else value)) d := by
  refine ⟨?_, ?_, ?_⟩
  · intro path hne hkeys d value
    obtain ⟨key, keys, rfl⟩ := List.exists_cons_of_ne_nil hne
    obtain ⟨matched, hmatch, hcomponents, hlistkey⟩ := matchAt_bracketKey hkeys
    simp [hmatch, hcomponents, hlistkey, arrayValues, insertLeaf]
  · intro key
    simp [bracketKey]
  · intro path path' hne hne' hkeys hkeys' h
    obtain ⟨key, keys, rfl⟩ := List.exists_cons_of_ne_nil hne
    obtain ⟨key', keys', rfl⟩ := List.exists_cons_of_ne_nil hne'
    obtain ⟨matched, hmatch, hcomponents, _⟩ := matchAt_bracketKey hkeys
    obtain ⟨matched', hmatch', hcomponents', _⟩ := matchAt_bracketKey hkeys'
    rw [h, hmatch'] at hmatch
    rw [← hcomponents, ← hcomponents', Option.some.inj hmatch]

section Document

variable (doc : Document)

theorem goodLeaves_document (hne : doc.items ≠ []) : GoodLeaves (itemLeaves doc.items) :=
  goodLeaves_items hne doc.nodup doc.keys fun item hitem => goodLeaves (doc.wellFormed item hitem)

theorem path_ne_nil {items : List (Text × Tree)} {l : Leaf} (hl : l ∈ itemLeaves items) :
    l.1 ≠ [] := by
  obtain ⟨item, _, m, _, rfl⟩ := mem_itemLeaves hl
  simp [Leaf.under]

theorem expandWith_document {rawKey : List Text → Text} {write : Dict → Text → Value → Dict}
    (hdecodes : Decodes rawKey write) (hne : doc.items ≠ []) :
    expandWith write ((itemLeaves doc.items).map fun l => rawItem (rawKey l.1, l.2)) =
      some (enumeratedItems doc.items) := by
  have hexpand := foldlM_expand hdecodes [] (fun l hl => path_ne_nil hl)
    (goodLeaves_document doc hne).keys
    (pairwise_apart doc.nodup fun item hitem => goodLeaves (doc.wellFormed item hitem))
  rw [List.append_nil, foldl_itemLeaves (by simpa [OrderedDict.keys] using doc.nodup)
    fun item hitem => builds (doc.wellFormed item hitem), List.nil_append] at hexpand
  exact hexpand

theorem parse_document {rawKey : List Text → Text} {write : Dict → Text → Value → Dict}
    (hdecodes : Decodes rawKey write) (hraw : ∀ path, path ≠ [] → (∀ key ∈ path, IsKey key) →
      rawKey path ≠ []) (hne : doc.items ≠ []) :
    parse (urlencode ((itemLeaves doc.items).map fun l => (rawKey l.1, l.2))) =
      (itemLeaves doc.items).map fun l => rawItem (rawKey l.1, l.2) := by
  have hgood := goodLeaves_document doc hne
  rw [parse_urlencode (by simpa using hgood.ne_nil), List.map_map]
  · rfl
  · intro param hparam
    obtain ⟨l, hl, rfl⟩ := List.mem_map.mp hparam
    exact hraw l.1 (path_ne_nil hl) (hgood.keys l hl)
  · have hpaths := hgood.nodup
    rw [List.map_map]
    rw [List.Nodup, List.pairwise_map] at hpaths ⊢
    apply hpaths.imp_of_mem
    intro l m hl hm hlm hsame
    exact hlm (hdecodes.injective l.1 m.1 (path_ne_nil hl) (path_ne_nil hm) (hgood.keys l hl)
      (hgood.keys m hm) hsame)

theorem bracketKey_ne_nil {path : List Text} (hne : path ≠ []) (hkeys : ∀ key ∈ path, IsKey key) :
    bracketKey path ≠ [] := by
  obtain ⟨key, keys, rfl⟩ := List.exists_cons_of_ne_nil hne
  simp [bracketKey, (hkeys key (by simp)).ne_nil]

theorem dotKey_ne_nil {path : List Text} (hne : path ≠ []) (hkeys : ∀ key ∈ path, IsKey key) :
    dotKey path ≠ [] := by
  obtain ⟨key, keys, rfl⟩ := List.exists_cons_of_ne_nil hne
  exact join_ne_nil (hkeys key (by simp)).ne_nil

theorem dot_not_mem_bracketKey {path : List Text} (hkeys : ∀ key ∈ path, IsKey key) :
    '.' ∉ bracketKey path := by
  cases path with
  | nil => simp [bracketKey]
  | cons key keys =>
    have hdot : ∀ k ∈ key :: keys, '.' ∉ k := fun k hk h => ((hkeys k hk).chars '.' h).1 rfl
    simp only [bracketKey, List.mem_append, List.mem_flatMap, List.mem_cons, List.not_mem_nil,
      or_false, not_or, not_exists, not_and]
    refine ⟨hdot key (by simp), ?_⟩
    intro k hk
    exact ⟨⟨by decide, hdot k (by simp [hk])⟩, by decide⟩

theorem length_of_dot_not_mem {path : List Text} (hne : path ≠ []) (h : '.' ∉ dotKey path) :
    ∃ key, path = [key] := by
  obtain ⟨key, keys, rfl⟩ := List.exists_cons_of_ne_nil hne
  cases keys with
  | nil => exact ⟨key, rfl⟩
  | cons next keys =>
    rw [dotKey, Text.join_cons_cons] at h
    simp at h

theorem requireJuliaSchema_nil : requireJuliaSchema [] = some [] := rfl

theorem requireJuliaSchema_toJuliaV1 :
    requireJuliaSchema (toJuliaV1 doc.items) = some (enumeratedItems doc.items) := by
  obtain hnil | hne := eq_or_ne doc.items []
  · rw [hnil]
    exact requireJuliaSchema_nil
  have hkeys := (goodLeaves_document doc hne).keys
  have hplain : (OrderedDict.keys ((itemLeaves doc.items).map fun l =>
      rawItem (bracketKey l.1, l.2))).any (fun key => key.contains '.') = false := by
    rw [List.any_eq_false]
    intro key hkey
    obtain ⟨_, hitem, rfl⟩ := List.mem_map.mp hkey
    obtain ⟨l, hl, rfl⟩ := List.mem_map.mp hitem
    simpa [rawItem] using dot_not_mem_bracketKey (hkeys l hl)
  rw [requireJuliaSchema, toJuliaV1,
    parse_document doc decodes_bracketKey (fun _ => bracketKey_ne_nil) hne, hplain]
  exact expandWith_document doc decodes_bracketKey hne

theorem requireJuliaSchema_toJuliaV2 :
    requireJuliaSchema (toJuliaV2 doc.items) = some (enumeratedItems doc.items) := by
  obtain hnil | hne := eq_or_ne doc.items []
  · rw [hnil]
    exact requireJuliaSchema_nil
  rw [requireJuliaSchema, toJuliaV2,
    parse_document doc decodes_dotKey (fun _ => dotKey_ne_nil) hne]
  cases hdotted : (OrderedDict.keys ((itemLeaves doc.items).map fun l =>
      rawItem (dotKey l.1, l.2))).any (fun key => key.contains '.') with
  | true => exact expandWith_document doc decodes_dotKey hne
  | false =>
    -- every path is a single key, so both forms have the same raw keys
    have hsame : ((itemLeaves doc.items).map fun l => rawItem (dotKey l.1, l.2)) =
        (itemLeaves doc.items).map fun l => rawItem (bracketKey l.1, l.2) := by
      apply List.map_congr_left
      intro l hl
      have hdot : '.' ∉ dotKey l.1 := by
        have hall := List.any_eq_false.mp hdotted (dotKey l.1)
          (List.mem_map.mpr ⟨_, List.mem_map_of_mem hl, rfl⟩)
        simpa using hall
      obtain ⟨key, hpath⟩ := length_of_dot_not_mem (path_ne_nil hl) hdot
      rw [hpath, decodes_dotKey.single, decodes_bracketKey.single]
    rw [hsame]
    exact expandWith_document doc decodes_bracketKey hne

theorem listOrDict_enumerated (items : List Tree) :
    listOrDict (Tree.list items).enumerated = .list (items.map Tree.enumerated) := by
  have hvalues : ∀ i, OrderedDict.values (enumeratedList i items) = items.map Tree.enumerated := by
    induction items with
    | nil => exact fun _ => rfl
    | cons tree items ih =>
      intro i
      have hcons : OrderedDict.values (enumeratedList i (tree :: items)) =
          tree.enumerated :: OrderedDict.values (enumeratedList (i + 1) items) := rfl
      rw [hcons, ih, List.map_cons]
  rw [Tree.enumerated, listOrDict, hvalues]

/-- Both wire formats decode to the enumerated tree, and a list comes back from its enumerated
dict in order. -/
theorem legacy_round_trip :
    requireJuliaSchema (toJuliaV1 doc.items) = some (enumeratedItems doc.items) ∧
    requireJuliaSchema (toJuliaV2 doc.items) = some (enumeratedItems doc.items) ∧
    ∀ items : List Tree,
      listOrDict (Tree.list items).enumerated = .list (items.map Tree.enumerated) :=
  ⟨requireJuliaSchema_toJuliaV1 doc, requireJuliaSchema_toJuliaV2 doc, listOrDict_enumerated⟩

example : toJuliaV1 [(['0'], .leaf "a b".toList), (['1'], .list [.leaf []])] =
    "0=a+b&1%5B0%5D=".toList := by
  decide +kernel

end Document

end LegacyWire

end Swat4Stats
