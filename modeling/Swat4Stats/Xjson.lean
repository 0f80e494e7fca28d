import Swat4Stats.Library.JsonRoundTrip

/-!
# JSON with types

`apps/utils/xjson.py`. A datetime, a date, a decimal and a UUID are written as an object with a
`__type__`, and the `object_hook` of the decoder turns such an object back into the value.
-/

namespace Swat4Stats

set_option autoImplicit false

namespace Xjson

/-- The classes from outside the module. -/
structure PyTypes where
  DateTime : Type
  Date : Type
  Decimal : Type
  UUID : Type
  Other : Type

variable {τ : PyTypes}

/-- The instances of `date`, of which `datetime` is a subclass. -/
inductive PyDate (τ : PyTypes) where
  | datetime (x : τ.DateTime)
  | date (d : τ.Date)

inductive XValue (τ : PyTypes) where
  | none
  | bool (b : Bool)
  | int (n : ℤ)
  | float (x : PyFloat)
  | str (s : Text)
  | list (items : List (XValue τ))
  | dict (items : List (Text × XValue τ))
  | date (d : PyDate τ)
  | decimal (x : τ.Decimal)
  | uuid (x : τ.UUID)
  | deserialized (object : XValue τ)
  | other (x : τ.Other)

/-- The methods and constructors of these classes; `none` where one raises. -/
structure Conversions (τ : PyTypes) where
  isoformat : PyDate τ → Text
  str : XValue τ → Text
  float : Text → PyFloat
  /-- The character that stands for a lone surrogate. -/
  surrogate : ℕ → Char
  parseDate : XValue τ → Option τ.DateTime
  /-- `datetime.date()` -/
  dateOf : τ.DateTime → τ.Date
  decimal : XValue τ → Option τ.Decimal
  uuid : XValue τ → Option τ.UUID

variable (c : Conversions τ)

inductive DumpError (τ : PyTypes) where
  /-- `Object of type … is not JSON serializable` -/
  | typeError (obj : XValue τ)

/-- `XJSONEncoder.default` -/
def default : XValue τ → Except (DumpError τ) PyDict
  -- a datetime is a date as well
  | .date (.datetime x) =>
    .ok [("__type__".toList, .str "__datetime__".toList),
      ("isoformat".toList, .str (c.isoformat (.datetime x)))]
  | .date d =>
    .ok [("__type__".toList, .str "__date__".toList),
      ("isoformat".toList, .str (c.isoformat d))]
  | .decimal x =>
    .ok [("__type__".toList, .str "__decimal__".toList),
      ("decimal".toList, .str (c.str (.decimal x)))]
  | .uuid x =>
    .ok [("__type__".toList, .str "__uuid__".toList),
      ("uuid".toList, .str (c.str (.uuid x)))]
  | .deserialized object => default object
  | obj => .error (.typeError obj)

mutual

/-- What `json` knows by itself stays, and the rest goes through `default`. -/
def encode : XValue τ → Except (DumpError τ) PyValue
  | .none => pure .none
  | .bool b => pure (.bool b)
  | .int n => pure (.int n)
  | .float x => pure (.float x)
  | .str s => pure (.str s)
  | .list items => do
    let items ← encodeItems items
    pure (.list items)
  | .dict items => do
    let items ← encodeEntries items
    pure (.dict items)
  | obj => do
    let obj ← default c obj
    pure (.dict obj)

def encodeItems : List (XValue τ) → Except (DumpError τ) (List PyValue)
  | [] => pure []
  | item :: items => do
    let item ← encode item
    let items ← encodeItems items
    pure (item :: items)

def encodeEntries : List (Text × XValue τ) → Except (DumpError τ) (List (Text × PyValue))
  | [] => pure []
  | (key, item) :: items => do
    let item ← encode item
    let items ← encodeEntries items
    pure ((key, item) :: items)

end

def dumps (obj : XValue τ) : Except (DumpError τ) Text := do
  let value ← encode c obj
  pure (Json.dumps value)

inductive LoadError where
  | jsonDecodeError
  | keyError (key : Text)
  | valueError (message : Text)
  /-- Raised by one of the constructors. -/
  | conversion
  deriving DecidableEq, Repr

/-- `obj[key]` -/
def getItem (obj : OrderedDict Text (XValue τ)) (key : Text) : Except LoadError (XValue τ) :=
  (OrderedDict.get? obj key).elim (.error (.keyError key)) .ok

def orRaise {α : Type} (result : Option α) : Except LoadError α :=
  result.elim (.error .conversion) .ok

def isText (text : Text) : XValue τ → Bool
  | .str s => s = text
  | _ => false

/-- `xjson_decoder` -/
def xjsonDecoder (obj : OrderedDict Text (XValue τ)) : Except LoadError (XValue τ) :=
  match OrderedDict.get? obj "__type__".toList with
  | none => .ok (.dict obj)
  | some type =>
    if isText "__datetime__".toList type then do
      let x ← orRaise (c.parseDate (← getItem obj "isoformat".toList))
      pure (.date (.datetime x))
    else if isText "__date__".toList type then do
      let x ← orRaise (c.parseDate (← getItem obj "isoformat".toList))
      pure (.date (.date (c.dateOf x)))
    else if isText "__decimal__".toList type then do
      let x ← orRaise (c.decimal (← getItem obj "decimal".toList))
      pure (.decimal x)
    else if isText "__uuid__".toList type then do
      let x ← orRaise (c.uuid (← getItem obj "uuid".toList))
      pure (.uuid x)
    else .error (.valueError ("Unknown type: ".toList ++ c.str type))

/-- `json` builds everything but objects by itself. -/
def hooks : Json.Hooks LoadError (XValue τ) where
  null := .none
  bool := .bool
  int := .int
  float s := .float (c.float s)
  str := .str
  surrogate := c.surrogate
  list := .list
  object := xjsonDecoder c
  decodeError := .jsonDecodeError

def loads (s : Text) : Except LoadError (XValue τ) := Json.loads (hooks c) s

/-- The constructors take back what the methods write. A date is written without a time, and read
as some time of its day. -/
structure ReadsBack : Prop where
  datetime (x : τ.DateTime) : c.parseDate (.str (c.isoformat (.datetime x))) = some x
  date (d : τ.Date) : ∃ x, c.parseDate (.str (c.isoformat (.date d))) = some x ∧ c.dateOf x = d
  decimal (x : τ.Decimal) : c.decimal (.str (c.str (.decimal x))) = some x
  uuid (x : τ.UUID) : c.uuid (.str (c.str (.uuid x))) = some x

/-- Dicts have each key once, and none is `__type__`. -/
inductive Serializable : XValue τ → Prop
  | none : Serializable .none
  | bool (b : Bool) : Serializable (.bool b)
  | int (n : ℤ) : Serializable (.int n)
  | str (s : Text) : Serializable (.str s)
  | list {items : List (XValue τ)} (hitems : ∀ item ∈ items, Serializable item) :
    Serializable (.list items)
  | dict {items : List (Text × XValue τ)} (hkeys : (OrderedDict.keys items).Nodup)
    (htype : "__type__".toList ∉ OrderedDict.keys items)
    (hitems : ∀ entry ∈ items, Serializable entry.2) : Serializable (.dict items)
  | date (d : PyDate τ) : Serializable (.date d)
  | decimal (x : τ.Decimal) : Serializable (.decimal x)
  | uuid (x : τ.UUID) : Serializable (.uuid x)

variable {c}

/-- `v` is encoded, and the hooks make `v` of what it is encoded as. -/
def ComesBack (c : Conversions τ) (v : XValue τ) : Prop :=
  ∃ p, encode c v = .ok p ∧ Json.Plain p ∧ Json.fold (hooks c) p = .ok v

theorem comesBack_items {items : List (XValue τ)} (h : ∀ item ∈ items, ComesBack c item) :
    ∃ ps, encodeItems c items = .ok ps ∧ (∀ p ∈ ps, Json.Plain p) ∧
      Json.foldItems (hooks c) ps = .ok items := by
  induction items with
  | nil => exact ⟨[], rfl, List.forall_mem_nil _, rfl⟩
  | cons item items ih =>
    obtain ⟨⟨p, hencode, hplain, hfold⟩, hitems⟩ := List.forall_mem_cons.mp h
    obtain ⟨ps, hencodes, hplains, hfolds⟩ := ih hitems
    refine ⟨p :: ps, ?_, List.forall_mem_cons.mpr ⟨hplain, hplains⟩, ?_⟩
    · rw [encodeItems, hencode, hencodes]
      rfl
    · rw [Json.foldItems, hfold, hfolds]
      rfl

theorem comesBack_entries {items : List (Text × XValue τ)}
    (h : ∀ entry ∈ items, ComesBack c entry.2) :
    ∃ ps, encodeEntries c items = .ok ps ∧ (∀ entry ∈ ps, Json.Plain entry.2) ∧
      Json.foldEntries (hooks c) ps = .ok items := by
  induction items with
  | nil => exact ⟨[], rfl, List.forall_mem_nil _, rfl⟩
  | cons entry items ih =>
    obtain ⟨key, item⟩ := entry
    obtain ⟨⟨p, hencode, hplain, hfold⟩, hitems⟩ := List.forall_mem_cons.mp h
    obtain ⟨ps, hencodes, hplains, hfolds⟩ := ih hitems
    refine ⟨(key, p) :: ps, ?_, List.forall_mem_cons.mpr ⟨hplain, hplains⟩, ?_⟩
    · rw [encodeEntries, hencode, hencodes]
      rfl
    · rw [Json.foldEntries, hfold, hfolds]
      rfl

theorem xjsonDecoder_of_untyped {items : OrderedDict Text (XValue τ)}
    (htype : "__type__".toList ∉ OrderedDict.keys items) :
    xjsonDecoder c items = .ok (.dict items) := by
  rw [xjsonDecoder, OrderedDict.get?_eq_none_iff.mpr htype]

theorem plain_typed (tag field text : Text) :
    Json.Plain (.dict [("__type__".toList, .str tag), (field, .str text)]) := by
  apply Json.Plain.dict
  exact List.forall_mem_cons.mpr ⟨.str tag, List.forall_mem_singleton.mpr (.str text)⟩

theorem comesBack_of_serializable (hc : ReadsBack c) {v : XValue τ} (hv : Serializable v) :
    ComesBack c v := by
  induction hv with
  | none => exact ⟨.none, rfl, .none, rfl⟩
  | bool b => exact ⟨.bool b, rfl, .bool b, rfl⟩
  | int n => exact ⟨.int n, rfl, .int n, rfl⟩
  | str s => exact ⟨.str s, rfl, .str s, rfl⟩
  | list _ ih =>
    obtain ⟨ps, hencode, hplain, hfold⟩ := comesBack_items ih
    refine ⟨.list ps, ?_, .list hplain, ?_⟩
    · rw [encode, hencode]
      rfl
    · rw [Json.fold, hfold]
      rfl
  | dict hkeys htype _ ih =>
    obtain ⟨ps, hencode, hplain, hfold⟩ := comesBack_entries ih
    refine ⟨.dict ps, ?_, .dict hplain, ?_⟩
    · rw [encode, hencode]
      rfl
    · rw [Json.fold, hfold]
      -- no key is read twice, so the hook gets the items as they are
      change xjsonDecoder c (OrderedDict.update [] _) = _
      rw [@OrderedDict.update_of_nodup _ _ _ [] _ hkeys, List.nil_append,
        xjsonDecoder_of_untyped htype]
  | date d =>
    cases d with
    | datetime x =>
      refine ⟨_, rfl, plain_typed _ _ _, ?_⟩
      change (orRaise (c.parseDate (.str (c.isoformat (.datetime x))))).bind _ = _
      rw [hc.datetime]
      rfl
    | date d =>
      obtain ⟨x, hparse, hdate⟩ := hc.date d
      refine ⟨_, rfl, plain_typed _ _ _, ?_⟩
      change (orRaise (c.parseDate (.str (c.isoformat (.date d))))).bind _ = _
      rw [hparse, ← hdate]
      rfl
  | decimal x =>
    refine ⟨_, rfl, plain_typed _ _ _, ?_⟩
    change (orRaise (c.decimal (.str (c.str (.decimal x))))).bind _ = _
    rw [hc.decimal]
    rfl
  | uuid x =>
    refine ⟨_, rfl, plain_typed _ _ _, ?_⟩
    change (orRaise (c.uuid (.str (c.str (.uuid x))))).bind _ = _
    rw [hc.uuid]
    rfl

/-- What is written is read back. -/
theorem loads_dumps (hc : ReadsBack c) {v : XValue τ} (hv : Serializable v) :
    ∃ text, dumps c v = .ok text ∧ loads c text = .ok v := by
  obtain ⟨p, hencode, hplain, hfold⟩ := comesBack_of_serializable hc hv
  refine ⟨Json.dumps p, ?_, ?_⟩
  · rw [dumps, hencode]
    rfl
  · rw [loads, Json.loads_dumps_eq_fold _ hplain, hfold]

def fits (format s : Text) : Bool :=
  s.length = format.length ∧ (format.zip s).all fun (f, c) =>
    if f = '0' then c.isDigit else if f = 'x' then (Percent.hexValue c).isSome else f = c

abbrev Formatted (format : String) := { s : Text // fits format.toList s = true }

def readText (format : String) (s : Text) : Option (Formatted format) :=
  if h : fits format.toList s = true then some ⟨s, h⟩ else none

theorem readText_val {format : String} (x : Formatted format) : readText format x.1 = some x :=
  dif_pos x.2

abbrev texts : PyTypes where
  DateTime := Formatted "0000-00-00" × Formatted "00:00:00"
  Date := Formatted "0000-00-00"
  Decimal := Formatted "0.00"
  UUID := Formatted "xxxxxxxx-xxxx-xxxx-xxxx-xxxxxxxxxxxx"
  Other := Empty

def textConversions : Conversions texts where
  isoformat
    | .datetime (d, time) => d.1 ++ 'T' :: time.1
    | .date d => d.1
  str
    | .decimal x => x.1
    | .uuid x => x.1
    | _ => []
  float s := ⟨none, s, false⟩
  surrogate _ := '\uFFFD'
  parseDate
    | .str s => do
      let d ← readText "0000-00-00" (s.take 10)
      let time ← readText "00:00:00" (if s.length = 10 then "00:00:00".toList else s.drop 11)
      pure (d, time)
    | _ => none
  dateOf x := x.1
  decimal
    | .str s => readText "0.00" s
    | _ => none
  uuid
    | .str s => readText "xxxxxxxx-xxxx-xxxx-xxxx-xxxxxxxxxxxx" s
    | _ => none

theorem length_formatted (d : Formatted "0000-00-00") : d.1.length = 10 := by
  have hfits := d.2
  rw [fits, decide_eq_true_eq] at hfits
  exact hfits.1

theorem readsBack_textConversions : ReadsBack textConversions where
  datetime x := by
    obtain ⟨d, time⟩ := x
    have hlength := length_formatted d
    have htake : (d.1 ++ 'T' :: time.1).take 10 = d.1 := List.take_left' hlength
    have hdrop : (d.1 ++ 'T' :: time.1).drop 11 = time.1 := by
      rw [List.drop_append, hlength, List.drop_of_length_le (by omega)]
      rfl
    have hne : (d.1 ++ 'T' :: time.1).length ≠ 10 := by
      rw [List.length_append, List.length_cons]
      omega
    simp only [textConversions, htake, hdrop, if_neg hne, readText_val, Option.bind_eq_bind,
      Option.bind_some, Option.pure_def]
  date d := by
    have hlength := length_formatted d
    have htake : d.1.take 10 = d.1 := List.take_of_length_le (by omega)
    refine ⟨(d, ⟨"00:00:00".toList, by decide⟩), ?_, rfl⟩
    simp only [textConversions, htake, if_pos hlength, readText_val, Option.bind_eq_bind,
      Option.bind_some, Option.pure_def]
    rfl
  decimal x := readText_val x
  uuid x := readText_val x

def report : XValue texts :=
  .dict
    [("dates".toList,
        .list
          [.date (.datetime
              (⟨"2016-05-02".toList, by decide⟩, ⟨"09:22:11".toList, by decide⟩)),
            .date (.date ⟨"2016-05-02".toList, by decide⟩)]),
      ("numbers".toList,
        .dict [("pi".toList, .decimal ⟨"3.14".toList, by decide⟩), ("n".toList, .int (-17))]),
      ("uid".toList, .uuid ⟨"a1c242c9-e16f-4211-81ee-d5cd01cea013".toList, by decide⟩),
      ("name".toList, .str "|\u00e9\u2028\"\\".toList),
      ("ok".toList, .bool true),
      ("none".toList, .none)]

theorem serializable_report : Serializable report := by
  apply Serializable.dict
  · decide
  · decide
  · simp only [List.forall_mem_cons]
    refine ⟨.list ?_, .dict (by decide) (by decide) ?_, .uuid _, .str _, .bool _, .none, ?_⟩
    · exact List.forall_mem_cons.mpr ⟨.date _, List.forall_mem_singleton.mpr (.date _)⟩
    · exact List.forall_mem_cons.mpr ⟨.decimal _, List.forall_mem_singleton.mpr (.int _)⟩
    · exact List.forall_mem_nil _

theorem loads_dumps_report :
    ∃ text, dumps textConversions report = .ok text ∧ loads textConversions text = .ok report :=
  loads_dumps readsBack_textConversions serializable_report

example :
    dumps textConversions (.date (.date ⟨"2016-05-02".toList, by decide⟩)) =
      .ok "\x7b\"__type__\": \"__date__\", \"isoformat\": \"2016-05-02\"\x7d".toList := rfl

end Xjson

end Swat4Stats
