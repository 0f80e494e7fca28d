import Swat4Stats.Library.JsonRoundTrip

/-!
# Values that are spelled out

Some encodings know texts only, and number the items of a list. A schema that coerces its scalars
accepts what was accepted before, with the same result; a flag that is a number has to be 0 or 1.
-/

namespace Swat4Stats

set_option autoImplicit false

section Stays

variable {α β : Type}

/-- What `x` results in, `y` results in too. -/
def Stays (x y : Option α) : Prop := ∀ a, x = some a → y = some a

namespace Stays

variable {x y : Option α}

theorem refl (x : Option α) : Stays x x := fun _ h => h

theorem none (y : Option α) : Stays .none y := fun _ h => nomatch h

theorem bind {f g : α → Option β} (h : Stays x y) (hfg : ∀ a, Stays (f a) (g a)) :
    Stays (x >>= f) (y >>= g) := by
  intro b hb
  obtain ⟨a, ha, hb⟩ := Option.bind_eq_some_iff.mp hb
  exact Option.bind_eq_some_iff.mpr ⟨a, h a ha, hfg a b hb⟩

theorem map (h : Stays x y) (f : α → β) : Stays (x.map f) (y.map f) := by
  intro b hb
  obtain ⟨a, ha, hb⟩ := Option.map_eq_some_iff.mp hb
  exact Option.map_eq_some_iff.mpr ⟨a, h a ha, hb⟩

theorem filter (h : Stays x y) (p : α → Bool) : Stays (x.filter p) (y.filter p) := by
  intro a ha
  obtain ⟨ha, hp⟩ := Option.filter_eq_some_iff.mp ha
  exact Option.filter_eq_some_iff.mpr ⟨h a ha, hp⟩

theorem mapM {v : β → Option α} {f : β → β} {xs : List β}
    (h : ∀ x ∈ xs, Stays (v x) (v (f x))) : Stays (xs.mapM v) ((xs.map f).mapM v) := by
  induction xs with
  | nil => exact refl _
  | cons x xs ih =>
    rw [List.map_cons, List.mapM_cons, List.mapM_cons]
    exact (h x List.mem_cons_self).bind fun a =>
      (ih fun x hx => h x (List.mem_cons_of_mem _ hx)).bind fun as => refl _

end Stays

end Stays

namespace PyValue

mutual

def spelled : PyValue → PyValue
  | .str s => .str s
  | .list items => .dict (spelledItems 0 items)
  | .dict items => .dict (spelledEntries items)
  | value => .str (value.repr id)

def spelledItems (i : ℕ) : List PyValue → List (Text × PyValue)
  | [] => []
  | item :: items => (Nat.toDigits 10 i, item.spelled) :: spelledItems (i + 1) items

def spelledEntries : List (Text × PyValue) → List (Text × PyValue)
  | [] => []
  | (key, item) :: items => (key, item.spelled) :: spelledEntries items

end

/-- Values with a spelling: no list and no dict is empty, and the keys of a dict are distinct. -/
inductive Spellable (isKey : Text → Prop) : PyValue → Prop
  | str (s : Text) : Spellable isKey (.str s)
  | int (n : ℤ) : Spellable isKey (.int n)
  | bool (b : Bool) : Spellable isKey (.bool b)
  | list {items : List PyValue} (hne : items ≠ []) (hitems : ∀ item ∈ items, Spellable isKey item) :
    Spellable isKey (.list items)
  | dict {items : List (Text × PyValue)} (hne : items ≠ []) (hnodup : (items.map Prod.fst).Nodup)
      (hkeys : ∀ entry ∈ items, isKey entry.1)
      (hitems : ∀ entry ∈ items, Spellable isKey entry.2) : Spellable isKey (.dict items)

section Spelled

variable {isKey : Text → Prop} {value : PyValue} {d : PyDict}

theorem values_spelledItems (items : List PyValue) (i : ℕ) :
    OrderedDict.values (spelledItems i items) = items.map spelled := by
  induction items generalizing i with
  | nil => rfl
  | cons item items ih =>
    have hrest := ih (i + 1)
    simp only [OrderedDict.values] at hrest
    simp [spelledItems, OrderedDict.values, hrest]

theorem spelledEntries_eq (items : List (Text × PyValue)) :
    spelledEntries items = items.map fun entry => (entry.1, entry.2.spelled) := by
  induction items with
  | nil => rfl
  | cons entry items ih =>
    obtain ⟨key, item⟩ := entry
    rw [spelledEntries, ih, List.map_cons]

theorem keys_spelledEntries (d : PyDict) : OrderedDict.keys (spelledEntries d) =
    OrderedDict.keys d := by
  simp [OrderedDict.keys, spelledEntries_eq]

theorem values_spelledEntries (d : PyDict) : OrderedDict.values (spelledEntries d) =
    (OrderedDict.values d).map spelled := by
  simp [OrderedDict.values, spelledEntries_eq]

theorem get?_spelledEntries (d : PyDict) (key : Text) :
    OrderedDict.get? (spelledEntries d) key = (OrderedDict.get? d key).map spelled := by
  induction d with
  | nil => rfl
  | cons entry d ih =>
    obtain ⟨k, item⟩ := entry
    rw [spelledEntries, OrderedDict.get?, OrderedDict.get?, ih]
    split <;> rfl

theorem repr_int (n : ℤ) : (PyValue.int n).repr id = Json.intText n := by
  cases n with
  | ofNat n => exact String.toList_ofList
  | negSucc n =>
    have happend : toString (Int.negSucc n) = "-" ++ Nat.repr (n + 1) := rfl
    rw [repr, happend, String.toList_append]
    exact congrArg (['-'] ++ ·) String.toList_ofList

end Spelled

end PyValue

namespace Voluptuous

open PyValue

variable {α β κ : Type} {isKey : Text → Prop} {value : PyValue}

/-- The validator accepts the spelled value too, with the same result. -/
def Tolerates (v : Validator α) (value : PyValue) : Prop := Stays (v value) (v value.spelled)

/-- Neither a list nor a dict. -/
def isScalar : PyValue → Bool
  | .list _ | .dict _ => false
  | _ => true

def isBool : PyValue → Bool
  | .bool _ => true
  | _ => false

/-- A number stands for a truth value only if it is 0 or 1. -/
def isFlag : PyValue → Bool
  | .int n => n = 0 ∨ n = 1
  | _ => true

theorem tolerates_text (h : Spellable isKey value) : Tolerates text value := by
  cases h with
  | str s => exact Stays.refl _
  | int n => exact Stays.none _
  | bool b => exact Stays.none _
  | list hne hitems => exact Stays.none _
  | dict hne hnodup hkeys hitems => exact Stays.none _

theorem tolerates_string (quote : Text → Text) (h : Spellable isKey value)
    (hscalar : isScalar value = true) : Tolerates (string quote) value := by
  cases h with
  | str s => exact Stays.refl _
  | int n => exact Stays.refl _
  | bool b => exact Stays.refl _
  | list hne hitems => cases hscalar
  | dict hne hnodup hkeys hitems => cases hscalar

theorem tolerates_int (h : Spellable isKey value) (hbool : isBool value = false) :
    Tolerates int value := by
  cases h with
  | str s => exact Stays.refl _
  | int n =>
    rintro _ ⟨⟩
    rw [spelled, repr_int]
    · exact Json.parseInt_intText n
    all_goals simp
  | bool b => cases hbool
  | list hne hitems => exact Stays.none _
  | dict hne hnodup hkeys hitems => exact Stays.none _

theorem Tolerates.range {v : Validator ℤ} (h : Tolerates v value) (least greatest : Option ℤ) :
    Tolerates (range least greatest v) value :=
  Stays.filter h _

theorem Tolerates.mapping {v : Validator κ} (h : Tolerates v value) (encoded : κ → Option β) :
    Tolerates (mapping v encoded) value :=
  Stays.bind h fun _ => Stays.refl _

theorem tolerates_boolean (h : Spellable isKey value) (hflag : isFlag value = true) :
    Tolerates boolean value := by
  cases h with
  | str s => exact Stays.refl _
  | int n =>
    obtain rfl | rfl := of_decide_eq_true hflag
    · exact fun b hb => by cases hb; decide
    · exact fun b hb => by cases hb; decide
  | bool b =>
    cases b with
    | false => exact fun b hb => by cases hb; decide
    | true => exact fun b hb => by cases hb; decide
  | list hne hitems =>
    obtain ⟨item, items, rfl⟩ := List.exists_cons_of_ne_nil hne
    exact Stays.refl _
  | dict hne hnodup hkeys hitems =>
    obtain ⟨entry, items, rfl⟩ := List.exists_cons_of_ne_nil hne
    exact Stays.refl _

/-- What `ListOrDict` goes through. -/
def itemsOf : PyValue → List PyValue
  | .list items => items
  | .dict items => OrderedDict.values items
  | _ => []

theorem spellable_item {item : PyValue} (h : Spellable isKey value)
    (hitem : item ∈ itemsOf value) : Spellable isKey item := by
  cases h with
  | str s | int n | bool b => cases hitem
  | list hne hitems => exact hitems item hitem
  | dict hne hnodup hkeys hitems =>
    obtain ⟨entry, hentry, rfl⟩ := List.mem_map.mp hitem
    exact hitems entry hentry

theorem spellable_get? {d : PyDict} {key : Text} (h : Spellable isKey (.dict d))
    (hget : OrderedDict.get? d key = some value) : Spellable isKey value := by
  cases h with
  | dict hne hnodup hkeys hitems => exact hitems _ (OrderedDict.mem_of_get? hget)

theorem tolerates_listOrDict {v : Validator α} (h : ∀ item ∈ itemsOf value, Tolerates v item) :
    Tolerates (listOrDict v) value := by
  match value with
  | .list items =>
    have hvalues : listOrDict v (PyValue.list items).spelled = (items.map spelled).mapM v := by
      rw [spelled, listOrDict, values_spelledItems]
    rw [Tolerates, hvalues]
    exact Stays.mapM h
  | .dict items =>
    have hvalues : listOrDict v (PyValue.dict items).spelled =
        ((OrderedDict.values items).map spelled).mapM v := by
      rw [spelled, listOrDict, values_spelledEntries]
    rw [Tolerates, hvalues]
    exact Stays.mapM h
  | .none | .bool b | .int n | .float x | .str s => exact Stays.none _

section Dict

variable {d : PyDict} {key : String} {v : Validator α}

theorem stays_required (h : ∀ value ∈ OrderedDict.get? d key.toList, Tolerates v value) :
    Stays (required d key v) (required (spelledEntries d) key v) := by
  rw [required, required, get?_spelledEntries]
  cases hget : OrderedDict.get? d key.toList with
  | none => exact Stays.none _
  | some value => exact h value hget

theorem stays_withDefault {default : PyValue}
    (h : ∀ value ∈ OrderedDict.get? d key.toList, Tolerates v value) :
    Stays (withDefault d key default v) (withDefault (spelledEntries d) key default v) := by
  rw [withDefault, withDefault, get?_spelledEntries]
  cases hget : OrderedDict.get? d key.toList with
  | none => exact Stays.refl _
  | some value => exact h value hget

theorem stays_optional (h : ∀ value ∈ OrderedDict.get? d key.toList, Tolerates v value) :
    Stays (optional d key v) (optional (spelledEntries d) key v) := by
  simp only [optional, get?_spelledEntries]
  cases hget : OrderedDict.get? d key.toList with
  | none => exact Stays.refl _
  | some value => exact Stays.map (h value hget) _

theorem stays_each {keys : List κ} {entry entry' : κ → Option α} (hall : ∀ k, k ∈ keys)
    (h : ∀ k, Stays (entry k) (entry' k)) : Stays (each keys entry) (each keys entry') := by
  intro f hf
  rw [each] at hf
  split at hf
  · rename_i hsome
    cases hf
    have hsame : entry' = entry := by
      funext k
      obtain ⟨a, ha⟩ := Option.isSome_iff_exists.mp (List.all_eq_true.mp hsome k (hall k))
      rw [ha]
      exact h k a ha
    rw [hsame, each, if_pos hsome]
  · cases hf

theorem noExtra_spelledEntries (keys : List String) :
    noExtra (spelledEntries d) keys = noExtra d keys := by
  rw [noExtra, noExtra, keys_spelledEntries]

end Dict

end Voluptuous

end Swat4Stats
