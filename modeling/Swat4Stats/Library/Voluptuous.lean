import Swat4Stats.Library.OrderedDict
import Swat4Stats.Library.Text

/-!
# Schemas over decoded data

Data as a decoder hands it over, and the validators that turn it into typed values; `none` is a
rejection. A float is known by what the conversions make of it, and so is the quoted form of a
text inside a container.
-/

namespace Swat4Stats

set_option autoImplicit false

/-- `trunc` is `none` where `int` raises. -/
structure PyFloat where
  trunc : Option ℤ
  repr : Text
  isZero : Bool
  deriving DecidableEq, Repr

inductive PyValue where
  | none
  | bool (b : Bool)
  | int (n : ℤ)
  | float (x : PyFloat)
  | str (s : Text)
  | list (items : List PyValue)
  | dict (items : List (Text × PyValue))

abbrev PyDict := OrderedDict Text PyValue

namespace PyValue

variable (quote : Text → Text)

mutual

def repr : PyValue → Text
  | .none => "None".toList
  | .bool b => if b then "True".toList else "False".toList
  | .int n => (toString n).toList
  | .float x => x.repr
  | .str s => quote s
  | .list items => '[' :: Text.join ", ".toList (reprItems items) ++ [']']
  | .dict items => '{' :: Text.join ", ".toList (reprEntries items) ++ ['}']

def reprItems : List PyValue → List Text
  | [] => []
  | item :: items => item.repr :: reprItems items

def reprEntries : List (Text × PyValue) → List Text
  | [] => []
  | (key, value) :: items => (quote key ++ ": ".toList ++ value.repr) :: reprEntries items

end

def toStr : PyValue → Text
  | .str s => s
  | value => value.repr quote

end PyValue

abbrev Validator (α : Type) := PyValue → Option α

namespace Voluptuous

variable {α β κ : Type}

def text : Validator Text
  | .str s => some s
  | _ => none

/-- `Coerce(str)` -/
def string (quote : Text → Text) : Validator Text := fun value => some (value.toStr quote)

/-- `Coerce(int)` -/
def int : Validator ℤ
  | .bool b => some (if b then 1 else 0)
  | .int n => some n
  | .float x => x.trunc
  | .str s => Text.parseInt s
  | _ => none

/-- `Range`, where a missing bound bounds nothing. -/
def range (least greatest : Option ℤ) (v : Validator ℤ) : Validator ℤ := fun value =>
  (v value).filter fun n => least.all (· ≤ n) ∧ greatest.all (n ≤ ·)

def positiveInt : Validator ℤ := range (some 0) none int

def truths : List Text := ["1", "true", "yes", "on", "enable"].map String.toList

def falsehoods : List Text := ["0", "false", "no", "off", "disable"].map String.toList

/-- `Boolean()`: the words in any case, and the truth of anything that is no text. -/
def boolean : Validator Bool
  | .str s =>
    if s.map Char.toLower ∈ truths then some true
    else if s.map Char.toLower ∈ falsehoods then some false
    else none
  | .none => some false
  | .bool b => some b
  | .int n => some (n ≠ 0)
  | .float x => some !x.isZero
  | .list items => some !items.isEmpty
  | .dict items => some !items.isEmpty

def booleanInt : Validator ℤ := fun value => (boolean value).map fun b => if b then 1 else 0

/-- `All(v, Mapping(...))` -/
def mapping (v : Validator κ) (encoded : κ → Option β) : Validator β := fun value =>
  (v value).bind encoded

def maybe (v : Validator α) : Validator (Option α)
  | .none => some none
  | value => (v value).map some

def listOf (v : Validator α) : Validator (List α)
  | .list items => items.mapM v
  | _ => none

/-- `ListOrDict` -/
def listOrDict (v : Validator α) : Validator (List α)
  | .dict items => (OrderedDict.values items).mapM v
  | value => listOf v value

def dict : Validator PyDict
  | .dict items => some items
  | _ => none

section Dict

variable (d : PyDict)

def required (key : String) (v : Validator α) : Option α :=
  (OrderedDict.get? d key.toList).bind v

/-- A key that is missing is validated as if it had the default value. -/
def withDefault (key : String) (default : PyValue) (v : Validator α) : Option α :=
  v ((OrderedDict.get? d key.toList).getD default)

def optional (key : String) (v : Validator α) : Option (Option α) :=
  match OrderedDict.get? d key.toList with
  | none => some none
  | some value => (v value).map some

/-- Only these keys are allowed. -/
def noExtra (keys : List String) : Bool :=
  (OrderedDict.keys d).all fun key => key ∈ keys.map String.toList

end Dict

/-- The entries of a family of keys, as a function of the key. -/
def each (keys : List κ) (entry : κ → Option α) : Option (κ → Option α) :=
  if keys.all fun key => (entry key).isSome then some entry else none

section Accepted

theorem range_eq_some {least greatest : Option ℤ} {v : Validator ℤ} {value : PyValue} {n : ℤ} :
    range least greatest v value = some n ↔
      v value = some n ∧ least.all (· ≤ n) ∧ greatest.all (n ≤ ·) := by
  simp only [range, Option.filter_eq_some_iff, decide_eq_true_eq]

theorem nonneg_of_positiveInt {value : PyValue} {n : ℤ} (h : positiveInt value = some n) :
    0 ≤ n := by
  have hrange := (range_eq_some.mp h).2.1
  simpa using hrange

theorem mem_mapM_iff {v : α → Option β} {xs : List α} {ys : List β} (h : xs.mapM v = some ys)
    {y : β} : y ∈ ys ↔ ∃ x ∈ xs, v x = some y := by
  induction xs generalizing ys with
  | nil =>
    simp only [List.mapM_nil, Option.pure_def, Option.some.injEq] at h
    subst h
    simp
  | cons x xs ih =>
    simp only [List.mapM_cons, Option.bind_eq_bind, Option.pure_def, Option.bind_eq_some_iff,
      Option.some.injEq] at h
    obtain ⟨z, hz, rest, hrest, rfl⟩ := h
    rw [List.mem_cons, ih hrest, List.exists_mem_cons_iff, hz, Option.some_inj, eq_comm]

theorem mapM_eq_none_iff {v : α → Option β} {xs : List α} :
    xs.mapM v = none ↔ ∃ x ∈ xs, v x = none := by
  induction xs with
  | nil => simp
  | cons x xs ih =>
    rw [List.mapM_cons, List.exists_mem_cons_iff, ← ih]
    cases v x with
    | none => simp
    | some y =>
      cases xs.mapM v with
      | none => simp
      | some ys => simp

theorem mem_of_listOf {v : Validator α} {value : PyValue} {xs : List α}
    (h : listOf v value = some xs) : ∀ x ∈ xs, ∃ item, v item = some x := by
  intro x hx
  cases value with
  | list items =>
    obtain ⟨item, _, hitem⟩ := (mem_mapM_iff h).mp hx
    exact ⟨item, hitem⟩
  | _ => cases h

theorem mem_of_listOrDict {v : Validator α} {value : PyValue} {xs : List α}
    (h : listOrDict v value = some xs) : ∀ x ∈ xs, ∃ item, v item = some x := by
  intro x hx
  cases value with
  | dict items =>
    obtain ⟨item, _, hitem⟩ := (mem_mapM_iff h).mp hx
    exact ⟨item, hitem⟩
  | list items =>
    rw [listOrDict] at h
    · exact mem_of_listOf h x hx
    · rintro _ ⟨⟩
  | _ => cases h

theorem exists_of_optional {d : PyDict} {key : String} {v : Validator α} {x : α}
    (h : optional d key v = some (some x)) : ∃ value, v value = some x := by
  unfold optional at h
  split at h
  · cases h
  · rename_i value _
    obtain ⟨y, hy, heq⟩ := Option.map_eq_some_iff.mp h
    obtain rfl := Option.some_inj.mp heq
    exact ⟨value, hy⟩

theorem exists_of_required {d : PyDict} {key : String} {v : Validator α} {x : α}
    (h : required d key v = some x) : ∃ value, v value = some x := by
  obtain ⟨value, _, hx⟩ := Option.bind_eq_some_iff.mp h
  exact ⟨value, hx⟩

end Accepted

end Voluptuous

end Swat4Stats
