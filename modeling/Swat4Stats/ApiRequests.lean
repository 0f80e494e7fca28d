import Swat4Stats.BracketKeys
import Swat4Stats.DottedKeys
import Swat4Stats.LegacyWire
import Swat4Stats.Library.Spelled

/-!
# Requests of game servers

The body or the query string of a request is decoded by what its content type says, and the view is
given what the schema makes of it. A form of texts is decoded as it is, and a document that is
spelled out in a legacy format as its spelling.
-/

namespace Swat4Stats

set_option autoImplicit false

open JuliaQueryString

namespace APIResponse

/-- What a view has to say. A lazily translated text is neither a text nor a list of texts. -/
inductive Message where
  | none
  | str (text : Text)
  | list (texts : List Text)
  | lazy (text : Text)

def _makeResponse (status : Text) (message : Message) : Text :=
  let parts := match message with
    | .str text => [status, text]
    | .list texts => status :: texts
    | .none | .lazy _ => [status]
  Text.strip (Text.join ['\n'] parts)

def fromSuccess (message : Message) : Text := _makeResponse "0".toList message

def fromError (message : Message) : Text := _makeResponse "1".toList message

/-- Of a message that is translated lazily nothing is said. -/
theorem fromError_lazy (text : Text) : fromError (.lazy text) = "1".toList := by
  have hstrip : Text.strip (Text.join ['\n'] ["1".toList]) = "1".toList := by decide
  exact hstrip

end APIResponse

mutual

def Value.toPy : Value → PyValue
  | .str s => .str s
  | .list items => .list (itemsToPy items)
  | .dict items => .dict (entriesToPy items)

def itemsToPy : List Value → List PyValue
  | [] => []
  | item :: items => item.toPy :: itemsToPy items

def entriesToPy : List (Text × Value) → List (Text × PyValue)
  | [] => []
  | (key, item) :: items => (key, item.toPy) :: entriesToPy items

end

/-- `json.loads` without hooks of its own. -/
def pyHooks (literals : Json.Literals) : Json.Hooks Unit PyValue where
  null := .none
  bool := .bool
  int := .int
  float s := .float (literals.float s)
  str := .str
  surrogate := literals.surrogate
  list := .list
  object items := .ok (.dict items)
  decodeError := ()

/-- For texts in which neither of the two is read. -/
def plainLiterals : Json.Literals where
  float s := ⟨none, s, false⟩
  surrogate _ := '\uFFFD'

inductive ContentType where
  | json
  | other

/-- The legacy decoders accept whatever they are given. -/
def decodeBody (literals : Json.Literals) (contentType : ContentType) (body : Text) :
    Option PyValue :=
  match contentType with
  | .json => (Json.loads (pyHooks literals) body).toOption
  | .other => (requireJuliaSchema body).map fun decoded => (Value.dict decoded).toPy

/-- `require_julia_schema` -/
def withJuliaSchema {α β : Type} (schema : Validator α) (literals : Json.Literals)
    (contentType : ContentType) (body : Text) (rejected : β) (view : α → β) : β :=
  match (decodeBody literals contentType body).bind schema with
  | none => rejected
  | some requestData => view requestData

theorem withJuliaSchema_of_decoded {α β : Type} {schema : Validator α} {literals : Json.Literals}
    {contentType : ContentType} {body : Text} {value : PyValue} {requestData : α} {rejected : β}
    {view : α → β} (hdecoded : decodeBody literals contentType body = some value)
    (hschema : schema value = some requestData) :
    withJuliaSchema schema literals contentType body rejected view = view requestData := by
  rw [withJuliaSchema, hdecoded, Option.bind_some, hschema]

section Total

theorem mem_keys_setItem {d : Dict} {key key' : Text} {value : Value}
    (h : key ∈ OrderedDict.keys d) : key ∈ OrderedDict.keys (setItem d key' value) := by
  rw [setItem]
  split
  · exact OrderedDict.mem_keys_set.mpr (.inr h)
  · exact h
  · split
    · exact OrderedDict.mem_keys_set.mpr (.inr h)
    · exact OrderedDict.mem_keys_set.mpr (.inr h)
  · exact OrderedDict.mem_keys_set.mpr (.inr h)

theorem mem_keys_setComplexKeyItem {d : Dict} {key : Text} (keys : List Text) {value : Value}
    (h : key ∈ OrderedDict.keys d) :
    key ∈ OrderedDict.keys (setComplexKeyItem d keys value) := by
  match keys with
  | [] => exact h
  | [_] => exact mem_keys_setItem h
  | _ :: _ :: _ => exact OrderedDict.mem_keys_set.mpr (.inr h)

theorem mem_keys_writeAll {d : Dict} {key : Text} {writes : List (List Text × Value)}
    (h : key ∈ OrderedDict.keys d) : key ∈ OrderedDict.keys (writeAll d writes) := by
  rw [writeAll]
  induction writes generalizing d with
  | nil => exact h
  | cons write writes ih => exact ih (mem_keys_setComplexKeyItem write.1 h)

/-- A key whose turn is still to come stays in the dict. -/
theorem exists_foldlM {write : Dict → Text → Value → Dict}
    (hwrite : ∀ d key key' value, key ∈ OrderedDict.keys d →
      key ∈ OrderedDict.keys (write d key' value))
    {keys : List Text} (hnodup : keys.Nodup) {d : Dict}
    (hmem : ∀ key ∈ keys, key ∈ OrderedDict.keys d) :
    ∃ e, keys.foldlM (fun d key => (OrderedDict.get? d key).map fun value =>
      write (OrderedDict.erase d key) key value) d = some e := by
  induction keys generalizing d with
  | nil => exact ⟨d, rfl⟩
  | cons key keys ih =>
    obtain ⟨hkey, hnodup⟩ := List.nodup_cons.mp hnodup
    obtain ⟨value, hvalue⟩ : ∃ value, OrderedDict.get? d key = some value :=
      Option.ne_none_iff_exists'.mp fun hnone =>
        OrderedDict.get?_eq_none_iff.mp hnone (hmem key List.mem_cons_self)
    obtain ⟨e, he⟩ := @ih hnodup (write (OrderedDict.erase d key) key value) (by
      intro other hother
      have hne : other ≠ key := by
        rintro rfl
        exact hkey hother
      have hsame : OrderedDict.get? (OrderedDict.erase d key) other = OrderedDict.get? d other :=
        OrderedDict.get?_erase_of_ne hne.symm
      refine hwrite _ _ _ _ (not_not.mp fun herased => ?_)
      rw [← OrderedDict.get?_eq_none_iff, hsame, OrderedDict.get?_eq_none_iff] at herased
      exact herased (hmem other (List.mem_cons_of_mem _ hother)))
    refine ⟨e, ?_⟩
    rw [List.foldlM_cons, hvalue]
    exact he

theorem exists_requireJuliaSchema (body : Text) :
    ∃ decoded, requireJuliaSchema body = some decoded := by
  have hnodup := (parsed_parse body).nodup
  rw [requireJuliaSchema]
  split
  · refine @exists_foldlM writeDotted (fun d key key' value h => ?_) _ hnodup (parse body)
      fun _ h => h
    rw [writeDotted_eq]
    exact mem_keys_setComplexKeyItem _ h
  · refine @exists_foldlM writeArray (fun d key key' value h => ?_) _ hnodup (parse body)
      fun _ h => h
    rw [writeArray_eq]
    exact mem_keys_writeAll h

end Total

section Form

theorem foldlM_writeArray_plain {todo done : Dict}
    (hplain : ∀ entry ∈ todo, entry.1 ≠ [] ∧ isPlain entry.1 = true ∧ ∃ s, entry.2 = .str s)
    (hnodup : (OrderedDict.keys (todo ++ done)).Nodup) :
    (OrderedDict.keys todo).foldlM (fun d key => (OrderedDict.get? d key).map fun value =>
      writeArray (OrderedDict.erase d key) key value) (todo ++ done) = some (done ++ todo) := by
  induction todo generalizing done with
  | nil => simp [OrderedDict.keys]
  | cons entry todo ih =>
    obtain ⟨key, value⟩ := entry
    obtain ⟨hne, hkey, s, hs⟩ := hplain (key, value) (by simp)
    have hrest : key ∉ OrderedDict.keys (todo ++ done) ∧
        (OrderedDict.keys (todo ++ done)).Nodup := by
      simpa [OrderedDict.keys] using hnodup
    have hwrite : writeArray (todo ++ done) key value = todo ++ (done ++ [(key, value)]) := by
      rw [writeArray_eq, arrayWrites_of_isPlain hne hkey]
      cases hs
      simp only [arrayValues, List.map_cons, List.map_nil, writeAll, List.foldl_cons,
        List.foldl_nil, setComplexKeyItem, setItem, OrderedDict.get?_eq_none_iff.mpr hrest.1,
        OrderedDict.set_of_not_mem hrest.1, List.append_assoc]
    have hperm : (((key, value) :: todo) ++ done).Perm (todo ++ (done ++ [(key, value)])) := by
      rw [← List.append_assoc, List.cons_append]
      exact (List.perm_append_singleton _ _).symm
    have hnodup' : (OrderedDict.keys (todo ++ (done ++ [(key, value)]))).Nodup :=
      (hperm.map Prod.fst).nodup_iff.mp hnodup
    have hstep := ih (fun entry hentry => hplain entry (by simp [hentry])) hnodup'
    simpa [OrderedDict.keys, OrderedDict.get?, OrderedDict.erase, hwrite] using hstep

/-- A form with plain keys is decoded as it is. -/
theorem requireJuliaSchema_urlencode {params : List (Text × Text)} (hne : params ≠ [])
    (hplain : ∀ param ∈ params, param.1 ≠ [] ∧ isPlain param.1 = true ∧ '.' ∉ param.1)
    (hnodup : (params.map Prod.fst).Nodup) :
    requireJuliaSchema (urlencode params) = some (params.map LegacyWire.rawItem) := by
  have hparse := LegacyWire.parse_urlencode hne (fun param hparam => (hplain param hparam).1) hnodup
  have hkeys : OrderedDict.keys (params.map LegacyWire.rawItem) = params.map Prod.fst := by
    simp [OrderedDict.keys, LegacyWire.rawItem]
  have hdots : ((OrderedDict.keys (params.map LegacyWire.rawItem)).any
      fun key => key.contains '.') = false := by
    rw [hkeys, List.any_eq_false]
    intro key hkey
    obtain ⟨param, hparam, rfl⟩ := List.mem_map.mp hkey
    simpa using (hplain param hparam).2.2
  rw [requireJuliaSchema, hparse]
  simp only [hdots, Bool.false_eq_true, if_false]
  have hloop := @foldlM_writeArray_plain (params.map LegacyWire.rawItem) []
    (by
      intro entry hentry
      obtain ⟨param, hparam, rfl⟩ := List.mem_map.mp hentry
      exact ⟨(hplain param hparam).1, (hplain param hparam).2.1, param.2, rfl⟩)
    (by rwa [List.append_nil, hkeys])
  rwa [List.append_nil] at hloop

end Form

section Document

open PyValue Voluptuous

mutual

/-- The document as a legacy encoder sees it: with texts for its scalars. -/
def toTree : PyValue → Tree
  | .str s => .leaf s
  | .list items => .list (treeItems items)
  | .dict items => .dict (treeEntries items)
  | value => .leaf (value.repr id)

def treeItems : List PyValue → List Tree
  | [] => []
  | item :: items => toTree item :: treeItems items

def treeEntries : List (Text × PyValue) → List (Text × Tree)
  | [] => []
  | (key, item) :: items => (key, toTree item) :: treeEntries items

end

theorem treeItems_eq (items : List PyValue) : treeItems items = items.map toTree := by
  induction items with
  | nil => rfl
  | cons item items ih => rw [treeItems, ih, List.map_cons]

theorem treeEntries_eq (items : List (Text × PyValue)) :
    treeEntries items = items.map fun entry => (entry.1, toTree entry.2) := by
  induction items with
  | nil => rfl
  | cons entry items ih =>
    obtain ⟨key, item⟩ := entry
    rw [treeEntries, ih, List.map_cons]

mutual

theorem toPy_toTree (value : PyValue) : (toTree value).enumerated.toPy = value.spelled := by
  match value with
  | .str s => rfl
  | .list items =>
    rw [toTree, Tree.enumerated, Value.toPy, spelled, entriesToPy_treeItems]
  | .dict items =>
    rw [toTree, Tree.enumerated, Value.toPy, spelled, entriesToPy_treeEntries]
  | .none | .bool b | .int n | .float x => rfl

theorem entriesToPy_treeItems (items : List PyValue) (i : ℕ) :
    entriesToPy (enumeratedList i (treeItems items)) = spelledItems i items := by
  match items with
  | [] => rfl
  | item :: items =>
    rw [treeItems, enumeratedList, entriesToPy, spelledItems, toPy_toTree item,
      entriesToPy_treeItems items (i + 1), index]

theorem entriesToPy_treeEntries (items : List (Text × PyValue)) :
    entriesToPy (enumeratedItems (treeEntries items)) = spelledEntries items := by
  match items with
  | [] => rfl
  | (key, item) :: items =>
    rw [treeEntries, enumeratedItems, entriesToPy, spelledEntries, toPy_toTree item,
      entriesToPy_treeEntries items]

end

theorem wellFormed_toTree {value : PyValue} (h : Spellable IsKey value) :
    (toTree value).WellFormed := by
  induction h with
  | str s => exact .leaf s
  | int n => exact .leaf _
  | bool b => exact .leaf _
  | list hne _ ih =>
    refine .list ?_ ?_
    · rw [treeItems_eq]
      simpa using hne
    · intro tree htree
      rw [treeItems_eq] at htree
      obtain ⟨item, hitem, rfl⟩ := List.mem_map.mp htree
      exact ih item hitem
  | dict hne hnodup hkeys _ ih =>
    rw [toTree, treeEntries_eq]
    refine .dict ?_ ?_ ?_ ?_
    · simpa using hne
    · rw [List.map_map]
      exact hnodup
    · intro item hitem
      obtain ⟨entry, hentry, rfl⟩ := List.mem_map.mp hitem
      exact hkeys entry hentry
    · intro item hitem
      obtain ⟨entry, hentry, rfl⟩ := List.mem_map.mp hitem
      exact ih entry hentry

theorem plain_of_spellable {isKey : Text → Prop} {value : PyValue} (h : Spellable isKey value) :
    Json.Plain value := by
  induction h with
  | str s => exact .str s
  | int n => exact .int n
  | bool b => exact .bool b
  | list _ _ ih => exact .list ih
  | dict _ _ _ _ ih => exact .dict ih

theorem fold_pyHooks {isKey : Text → Prop} {value : PyValue} (literals : Json.Literals)
    (h : Spellable isKey value) : Json.fold (pyHooks literals) value = .ok value := by
  induction h with
  | str s => rfl
  | int n => rfl
  | bool b => rfl
  | @list items _ _ ih =>
    have hitems : Json.foldItems (pyHooks literals) items = .ok items := by
      clear * - ih
      induction items with
      | nil => rfl
      | cons item items ihs =>
        rw [Json.foldItems, ih item List.mem_cons_self,
          ihs fun item hitem => ih item (List.mem_cons_of_mem _ hitem)]
        rfl
    rw [Json.fold, hitems]
    rfl
  | @dict items _ hnodup _ _ ih =>
    have hitems : Json.foldEntries (pyHooks literals) items = .ok items := by
      clear * - ih
      induction items with
      | nil => rfl
      | cons entry items ihs =>
        obtain ⟨key, item⟩ := entry
        rw [Json.foldEntries, ih (key, item) List.mem_cons_self,
          ihs fun entry hentry => ih entry (List.mem_cons_of_mem _ hentry)]
        rfl
    rw [Json.fold, hitems]
    change Except.ok (PyValue.dict (OrderedDict.update [] items)) = _
    rw [OrderedDict.update_of_nodup (by simpa [OrderedDict.keys] using hnodup), List.nil_append]

theorem decodeBody_dumps {isKey : Text → Prop} {value : PyValue} (literals : Json.Literals)
    (h : Spellable isKey value) : decodeBody literals .json (Json.dumps value) = some value := by
  rw [decodeBody, Json.loads_dumps_eq_fold _ (plain_of_spellable h), fold_pyHooks literals h]
  rfl

/-- Both legacy formats decode to the spelling of the document. -/
theorem decodeBody_toJulia {items : List (Text × PyValue)} (literals : Json.Literals)
    (h : Spellable IsKey (.dict items)) :
    decodeBody literals .other (toJuliaV1 (treeEntries items)) = some (PyValue.dict items).spelled ∧
      decodeBody literals .other (toJuliaV2 (treeEntries items)) =
        some (PyValue.dict items).spelled := by
  have htree := wellFormed_toTree h
  rw [toTree] at htree
  cases htree with
  | dict hne hnodup hkeys htrees =>
    let doc : Document := ⟨treeEntries items, hnodup, hkeys, htrees⟩
    have hpy : (Value.dict (enumeratedItems (treeEntries items))).toPy =
        (PyValue.dict items).spelled := toPy_toTree (.dict items)
    constructor
    · rw [decodeBody, LegacyWire.requireJuliaSchema_toJuliaV1 doc, Option.map_some, hpy]
    · rw [decodeBody, LegacyWire.requireJuliaSchema_toJuliaV2 doc, Option.map_some, hpy]

end Document

end Swat4Stats
