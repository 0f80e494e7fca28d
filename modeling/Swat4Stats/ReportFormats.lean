import Swat4Stats.ApiRequests
import Swat4Stats.GameSchema
import Swat4Stats.StreamRace

/-!
# One report in three formats

A game server streams its report as JSON or in one of the two legacy formats, which know texts only
and number the items of a list. What the schema makes of the three is the same, so that the tracker
queues one and the same task and answers with the same words.
-/

namespace Swat4Stats

set_option autoImplicit false

open Tx PyValue

namespace Schema

open Voluptuous

/-- Under the keys of some texts stand scalars, under those of the flags anything but a number other
than 0 and 1, and a truth value stands under no other key. -/
structure Coercible (texts flags : List String) (d : PyDict) : Prop where
  scalar : ∀ key ∈ texts, ∀ value ∈ OrderedDict.get? d key.toList, isScalar value = true
  flag : ∀ key ∈ flags, ∀ value ∈ OrderedDict.get? d key.toList, isFlag value = true
  number : ∀ entry ∈ d, String.ofList entry.1 ∉ flags → isBool entry.2 = false

section Coercible

variable {texts flags : List String} {d : PyDict} {key : String}

theorem tolerates_text (hd : Spellable IsKey (.dict d)) :
    ∀ value ∈ OrderedDict.get? d key.toList, Tolerates text value :=
  fun _ hvalue => Voluptuous.tolerates_text (spellable_get? hd hvalue)

namespace Coercible

theorem tolerates_int (h : Coercible texts flags d) (hd : Spellable IsKey (.dict d))
    (hkey : key ∉ flags) : ∀ value ∈ OrderedDict.get? d key.toList, Tolerates int value := by
  intro value hvalue
  refine Voluptuous.tolerates_int (spellable_get? hd hvalue) ?_
  exact h.number _ (OrderedDict.mem_of_get? hvalue) (by rwa [String.ofList_toList])

theorem tolerates_positiveInt (h : Coercible texts flags d) (hd : Spellable IsKey (.dict d))
    (hkey : key ∉ flags) :
    ∀ value ∈ OrderedDict.get? d key.toList, Tolerates positiveInt value :=
  fun value hvalue => (h.tolerates_int hd hkey value hvalue).range _ _

theorem tolerates_mapping {β : Type} (h : Coercible texts flags d)
    (hd : Spellable IsKey (.dict d)) (hkey : key ∉ flags) (encoded : ℤ → Option β) :
    ∀ value ∈ OrderedDict.get? d key.toList, Tolerates (mapping int encoded) value :=
  fun value hvalue => (h.tolerates_int hd hkey value hvalue).mapping encoded

theorem tolerates_string (h : Coercible texts flags d) (hd : Spellable IsKey (.dict d))
    (quote : Text → Text) (hkey : key ∈ texts) :
    ∀ value ∈ OrderedDict.get? d key.toList, Tolerates (string quote) value := fun value hvalue =>
  Voluptuous.tolerates_string quote (spellable_get? hd hvalue) (h.scalar key hkey value hvalue)

theorem tolerates_boolean (h : Coercible texts flags d) (hd : Spellable IsKey (.dict d))
    (hkey : key ∈ flags) : ∀ value ∈ OrderedDict.get? d key.toList, Tolerates boolean value :=
  fun value hvalue =>
    Voluptuous.tolerates_boolean (spellable_get? hd hvalue) (h.flag key hkey value hvalue)

end Coercible

end Coercible

/-- The value is of such a kind if it is a dict at all. -/
def DictOf (P : PyDict → Prop) : PyValue → Prop
  | .dict d => P d
  | _ => True

section Items

variable {α : Type} {value : PyValue}

theorem tolerates_dict {P : PyDict → Prop} {v : PyDict → Option α} (hP : DictOf P value)
    (hvalue : Spellable IsKey value)
    (h : ∀ d, P d → Spellable IsKey (.dict d) → Stays (v d) (v (spelledEntries d))) :
    Tolerates (fun value => (dict value).bind v) value := by
  match value with
  | .dict d => exact h d hP hvalue
  | .none | .bool b | .int n | .float x | .str s | .list items => exact Stays.none _

theorem tolerates_objectiveItem (hP : DictOf (Coercible [] []) value)
    (hvalue : Spellable IsKey value) : Tolerates objectiveItem value := by
  refine tolerates_dict hP hvalue fun d h hd => ?_
  refine (stays_required (h.tolerates_mapping hd List.not_mem_nil _)).bind fun name => ?_
  exact (stays_withDefault (h.tolerates_mapping hd List.not_mem_nil _)).bind fun status =>
    Stays.refl _

theorem tolerates_procedureItem (hP : DictOf (Coercible [] []) value)
    (hvalue : Spellable IsKey value) : Tolerates procedureItem value := by
  refine tolerates_dict hP hvalue fun d h hd => ?_
  refine (stays_required (h.tolerates_mapping hd List.not_mem_nil _)).bind fun name => ?_
  refine (stays_withDefault (tolerates_text hd)).bind fun status => ?_
  exact (stays_withDefault (h.tolerates_int hd List.not_mem_nil)).bind fun score => Stays.refl _

theorem tolerates_loadoutSlots (hP : DictOf (Coercible [] []) value)
    (hvalue : Spellable IsKey value) : Tolerates loadoutSlots value := by
  refine tolerates_dict hP hvalue fun d h hd => ?_
  have hequipment :
      ∀ key, Stays (loadoutEquipment d key) (loadoutEquipment (spelledEntries d) key) :=
    fun key => stays_withDefault (h.tolerates_mapping hd List.not_mem_nil _)
  have hammo : ∀ key, Stays (loadoutAmmo d key) (loadoutAmmo (spelledEntries d) key) :=
    fun key => stays_withDefault (h.tolerates_mapping hd List.not_mem_nil _)
  refine (hequipment "0").bind fun primary => (hammo "1").bind fun primaryAmmo => ?_
  refine (hequipment "2").bind fun secondary => (hammo "3").bind fun secondaryAmmo => ?_
  refine (hequipment "4").bind fun equipOne => (hequipment "5").bind fun equipTwo => ?_
  refine (hequipment "6").bind fun equipThree => (hequipment "7").bind fun equipFour => ?_
  refine (hequipment "8").bind fun equipFive => (hequipment "9").bind fun breacher => ?_
  exact (hequipment "10").bind fun body => (hequipment "11").bind fun head => Stays.refl _

theorem tolerates_weaponItem (hP : DictOf (Coercible [] []) value)
    (hvalue : Spellable IsKey value) : Tolerates weaponItem value := by
  refine tolerates_dict hP hvalue fun d h hd => ?_
  have hcount : ∀ key default, Stays (withDefault d key default positiveInt)
      (withDefault (spelledEntries d) key default positiveInt) :=
    fun key default => stays_withDefault (h.tolerates_positiveInt hd List.not_mem_nil)
  refine (stays_required (h.tolerates_int hd List.not_mem_nil)).bind fun code => ?_
  refine (hcount _ _).bind fun time => (hcount _ _).bind fun shots => ?_
  refine (hcount _ _).bind fun hits => (hcount _ _).bind fun teamhits => ?_
  refine (hcount _ _).bind fun kills => (hcount _ _).bind fun teamkills => ?_
  exact (hcount _ _).bind fun distance => Stays.refl _

/-- The texts of a player are the address and the name, the flags dropped, admin and vip. -/
structure CoerciblePlayer (d : PyDict) : Prop extends
    Coercible ["1", "5"] ["2", "3", "4"] d where
  loadout : ∀ value ∈ OrderedDict.get? d "39".toList, DictOf (Coercible [] []) value
  weapons : ∀ value ∈ OrderedDict.get? d "40".toList, ∀ item ∈ itemsOf value,
    DictOf (Coercible [] []) item

theorem playerKey_not_mem (field : PlayerField) : playerKey field ∉ ["2", "3", "4"] := by
  cases field <;> decide

theorem mem_playerFields (field : PlayerField) : field ∈ playerFields := by
  cases field <;> decide

theorem tolerates_playerItem (quote : Text → Text) (hP : DictOf CoerciblePlayer value)
    (hvalue : Spellable IsKey value) : Tolerates (playerItem quote) value := by
  refine tolerates_dict hP hvalue fun d h hd => ?_
  have hcolumns := h.toCoercible
  have hnumber : ∀ field, ∀ value ∈ OrderedDict.get? d (playerKey field).toList,
      Tolerates (playerValidator field) value := by
    intro field
    have hint := hcolumns.tolerates_int hd (playerKey_not_mem field)
    cases field with
    | score => exact hint
    | _ => exact hcolumns.tolerates_positiveInt hd (playerKey_not_mem _)
  refine (stays_required (hcolumns.tolerates_int hd (by decide))).bind fun _id => ?_
  refine (stays_required (hcolumns.tolerates_string hd quote (by decide))).bind fun ip => ?_
  refine (stays_withDefault (hcolumns.tolerates_boolean hd (by decide))).bind fun dropped => ?_
  refine (stays_withDefault (hcolumns.tolerates_boolean hd (by decide))).bind fun admin => ?_
  refine (stays_optional (hcolumns.tolerates_boolean hd (by decide))).bind fun vip => ?_
  refine (stays_required (hcolumns.tolerates_string hd quote (by decide))).bind fun name => ?_
  refine (stays_withDefault (hcolumns.tolerates_mapping hd (by decide) _)).bind fun team => ?_
  refine (stays_each mem_playerFields fun field => stays_optional (hnumber field)).bind
    fun stats => ?_
  refine (stays_optional (hcolumns.tolerates_positiveInt hd (by decide))).bind fun _ => ?_
  refine (stays_optional (hcolumns.tolerates_positiveInt hd (by decide))).bind fun _ => ?_
  refine (stays_optional (hcolumns.tolerates_mapping hd (by decide) _)).bind fun coopStatus => ?_
  refine (stays_optional fun value hvalue =>
    tolerates_loadoutSlots (h.loadout value hvalue) (spellable_get? hd hvalue)).bind
      fun loadout => ?_
  exact (stays_optional fun value hvalue => tolerates_listOrDict fun item hitem =>
    tolerates_weaponItem (h.weapons value hvalue item hitem)
      (spellable_item (spellable_get? hd hvalue) hitem)).bind fun weapons => Stays.refl _

end Items

/-- The texts of a report are the names of the game, the game type and the map; the flag tells
whether the server asks for a password. -/
structure CoercibleReport (d : PyDict) : Prop extends Coercible ["5", "8", "9"] ["10"] d where
  objectives : ∀ value ∈ OrderedDict.get? d "25".toList, ∀ item ∈ itemsOf value,
    DictOf (Coercible [] []) item
  procedures : ∀ value ∈ OrderedDict.get? d "26".toList, ∀ item ∈ itemsOf value,
    DictOf (Coercible [] []) item
  players : ∀ value ∈ OrderedDict.get? d "27".toList, ∀ item ∈ itemsOf value,
    DictOf CoerciblePlayer item

theorem stays_filter {α : Type} {p : PyDict → Bool} {d d' : PyDict} {v : PyDict → Option α}
    (hp : p d' = p d) (h : Stays (v d) (v d')) :
    Stays ((some d).filter p >>= v) ((some d').filter p >>= v) := by
  rw [Option.filter_some, Option.filter_some, hp]
  cases p d with
  | true => exact h
  | false => exact Stays.none _

theorem tolerates_gameSchema (quote : Text → Text) {d : PyDict} (h : CoercibleReport d)
    (hd : Spellable IsKey (.dict d)) : Tolerates (gameSchema quote) (.dict d) := by
  have hcolumns := h.toCoercible
  have hcount : ∀ key ∉ ["10"], ∀ value ∈ OrderedDict.get? d (key : String).toList,
      Tolerates positiveInt value := fun key hkey => hcolumns.tolerates_positiveInt hd hkey
  have hname : ∀ key ∈ ["5", "8", "9"], ∀ value ∈ OrderedDict.get? d (key : String).toList,
      Tolerates (string quote) value := fun key hkey => hcolumns.tolerates_string hd quote hkey
  have hgamename : ∀ value ∈ OrderedDict.get? d "5".toList, Tolerates (gamename quote) value :=
    fun value hvalue => Stays.filter (Stays.map (hname "5" (by decide) value hvalue) _) _
  have hgametype : ∀ value ∈ OrderedDict.get? d "8".toList, Tolerates (gametype quote) value :=
    fun value hvalue => Stays.bind (Stays.map (hname "8" (by decide) value hvalue) _) fun _ =>
      Stays.refl _
  have hmapname : ∀ value ∈ OrderedDict.get? d "9".toList, Tolerates (mapname quote) value :=
    fun value hvalue => Stays.map (hname "9" (by decide) value hvalue) _
  have hport : ∀ value ∈ OrderedDict.get? d "2".toList,
      Tolerates (range (some 1) (some 65535) int) value :=
    fun value hvalue => (hcolumns.tolerates_int hd (by decide) value hvalue).range _ _
  apply stays_filter (noExtra_spelledEntries _)
  refine (stays_required (tolerates_text hd)).bind fun tag => ?_
  refine (stays_required (tolerates_text hd)).bind fun _version => ?_
  refine (stays_required hport).bind fun _port => ?_
  refine (stays_required (hcount "3" (by decide))).bind fun _timestamp => ?_
  refine (stays_required (tolerates_text hd)).bind fun _hash => ?_
  refine (stays_withDefault hgamename).bind fun _gamename => ?_
  refine (stays_required (tolerates_text hd)).bind fun _gamever => ?_
  refine (stays_required (tolerates_text hd)).bind fun _hostname => ?_
  refine (stays_withDefault hgametype).bind fun gametype => ?_
  refine (stays_withDefault hmapname).bind fun mapname => ?_
  refine (stays_optional (hcolumns.tolerates_boolean hd (by decide))).bind fun _passworded => ?_
  refine (stays_required (hcount "11" (by decide))).bind fun playerNum => ?_
  refine (stays_required (hcount "12" (by decide))).bind fun _playerMax => ?_
  refine (stays_withDefault (hcount "13" (by decide))).bind fun _roundNum => ?_
  refine (stays_required (hcount "14" (by decide))).bind fun _roundMax => ?_
  refine (stays_required (hcount "15" (by decide))).bind fun _timeAbsolute => ?_
  refine (stays_required (hcount "16" (by decide))).bind fun time => ?_
  refine (stays_required (hcount "17" (by decide))).bind fun _timeLimit => ?_
  refine (stays_withDefault (hcount "18" (by decide))).bind fun victSwat => ?_
  refine (stays_withDefault (hcount "19" (by decide))).bind fun victSus => ?_
  refine (stays_withDefault (hcolumns.tolerates_int hd (by decide))).bind fun scoreSwat => ?_
  refine (stays_withDefault (hcolumns.tolerates_int hd (by decide))).bind fun scoreSus => ?_
  refine (stays_required (hcolumns.tolerates_mapping hd (by decide) _)).bind fun outcome => ?_
  refine (stays_withDefault (hcount "23" (by decide))).bind fun bombsDefused => ?_
  refine (stays_withDefault (hcount "24" (by decide))).bind fun bombsTotal => ?_
  refine (stays_optional fun value hvalue => tolerates_listOrDict fun item hitem =>
    tolerates_objectiveItem (h.objectives value hvalue item hitem)
      (spellable_item (spellable_get? hd hvalue) hitem)).bind fun coopObjectives => ?_
  refine (stays_optional fun value hvalue => tolerates_listOrDict fun item hitem =>
    tolerates_procedureItem (h.procedures value hvalue item hitem)
      (spellable_item (spellable_get? hd hvalue) hitem)).bind fun coopProcedures => ?_
  exact (stays_optional fun value hvalue => tolerates_listOrDict fun item hitem =>
    tolerates_playerItem quote (h.players value hvalue item hitem)
      (spellable_item (spellable_get? hd hvalue) hitem)).bind fun players =>
      Stays.refl _

/-- A validated request, with what the view reads of it apart from the report. -/
def requestSchema (quote : Text → Text) (ip : IPv4) : Validator DataStreamView.Request :=
  fun value => do
    let data ← gameSchema quote value
    let d ← dict value
    let version ← required d "1" text
    let port ← required d "2" (range (some 1) (some 65535) int)
    pure { ip, port := port.toNat, version := String.ofList version, data }

theorem tolerates_requestSchema (quote : Text → Text) (ip : IPv4) {d : PyDict}
    (h : CoercibleReport d) (hd : Spellable IsKey (.dict d)) :
    Tolerates (requestSchema quote ip) (.dict d) := by
  refine (tolerates_gameSchema quote h hd).bind fun data => ?_
  refine (stays_required (tolerates_text hd)).bind fun version => ?_
  exact (stays_required fun value hvalue =>
    (h.tolerates_int hd (by decide) value hvalue).range _ _).bind fun port => Stays.refl _

end Schema

namespace DataStreamView

open StreamRace (State)

def schemaErrorMessage : Text :=
  ("Unable to process the round data due to version mismatch\n" ++
    "Are you using the latest mod version?\n" ++
    "If not, please install the latest version from swat4stats.com/install").toList

/-- The response to an accepted report, or the exception that no handler catches. -/
def answer (request : Request) (s : State) : Except (Failure TrackerError) Text :=
  match ((handle request).run s.db).1 with
  | .ok _ => .ok (APIResponse.fromSuccess .none)
  | .error (.raised (.apiError message)) => .ok (APIResponse.fromError (.lazy message.toList))
  | .error e => .error e

/-- The view behind its decorator. -/
def post (quote : Text → Text) (literals : Json.Literals) (ip : IPv4) (contentType : ContentType)
    (body : Text) (receivedAt : Time) (s : State) : Except (Failure TrackerError) Text × State :=
  withJuliaSchema (Schema.requestSchema quote ip) literals contentType body
    (.ok (APIResponse.fromError (.lazy schemaErrorMessage)), s)
    fun request => (answer request s, StreamRace.post request receivedAt s)

/-- A body that is refused changes nothing, and the server is told no reason. -/
theorem post_of_refused {quote : Text → Text} {literals : Json.Literals} {ip : IPv4}
    {contentType : ContentType} {body : Text}
    (h : (decodeBody literals contentType body).bind (Schema.requestSchema quote ip) = Option.none)
    (receivedAt : Time) (s : State) :
    post quote literals ip contentType body receivedAt s = (.ok "1".toList, s) := by
  rw [post, withJuliaSchema, h, APIResponse.fromError_lazy]

end DataStreamView

namespace ReportFormats

open DataStreamView Schema

variable {quote : Text → Text} {literals : Json.Literals} {ip : IPv4} {items : PyDict}
  {request : Request}

/-- A report is answered and queued alike in each of the three formats. -/
theorem post_report (hspellable : Spellable IsKey (.dict items)) (hreport : CoercibleReport items)
    (haccepted : requestSchema quote ip (.dict items) = some request) (receivedAt : Time)
    (s : StreamRace.State) :
    post quote literals ip .json (Json.dumps (.dict items)) receivedAt s =
        (answer request s, StreamRace.post request receivedAt s) ∧
      post quote literals ip .other (toJuliaV1 (treeEntries items)) receivedAt s =
        (answer request s, StreamRace.post request receivedAt s) ∧
      post quote literals ip .other (toJuliaV2 (treeEntries items)) receivedAt s =
        (answer request s, StreamRace.post request receivedAt s) := by
  have hspelled := tolerates_requestSchema quote ip hreport hspellable request haccepted
  obtain ⟨hfirst, hsecond⟩ := decodeBody_toJulia literals hspellable
  exact ⟨withJuliaSchema_of_decoded (decodeBody_dumps literals hspellable) haccepted,
    withJuliaSchema_of_decoded hfirst hspelled, withJuliaSchema_of_decoded hsecond hspelled⟩

section Example

theorem isKey_of_all {key : Text} (hne : key ≠ [])
    (hall : (key.all fun c => c ≠ '.' ∧ c ≠ '[' ∧ c ≠ ']' ∧ Text.isSpace c = false) = true) :
    IsKey key :=
  ⟨hne, fun c hc => of_decide_eq_true (List.all_eq_true.mp hall c hc)⟩

theorem isKeys_of_all {items : PyDict} (hall : (items.all fun entry => entry.1 ≠ [] ∧
      (entry.1.all fun c => c ≠ '.' ∧ c ≠ '[' ∧ c ≠ ']' ∧ Text.isSpace c = false) = true) = true) :
    ∀ entry ∈ items, IsKey entry.1 := by
  intro entry hentry
  obtain ⟨hne, hchars⟩ := of_decide_eq_true (List.all_eq_true.mp hall entry hentry)
  exact isKey_of_all hne hchars

def entries (items : List (String × PyValue)) : PyDict :=
  items.map fun item => (item.1.toList, item.2)

def weapon : PyDict := entries [("0", .int 9), ("7", .int 1500)]

def player : PyDict :=
  entries [("0", .int 0), ("1", .str "10.0.0.1".toList), ("3", .bool true),
    ("5", .str "Serge".toList), ("8", .int (-7)), ("40", .list [.dict weapon])]

/-- The report of a game with one player, who is an admin. -/
def onePlayer : PyDict :=
  entries [("0", .str "5b4f3c2a".toList), ("1", .str "1.2.0".toList), ("2", .int 10480),
    ("3", .int 0), ("4", .str "0f1e2d3c".toList), ("6", .str "1.1".toList),
    ("7", .str "Server".toList), ("8", .int 1), ("10", .int 0), ("11", .int 1), ("12", .int 16),
    ("14", .int 5), ("15", .int 600), ("16", .int 300), ("17", .int 900), ("22", .int 1),
    ("27", .list [.dict player])]

theorem spellable_onePlayer : Spellable IsKey (.dict onePlayer) := by
  have hweapon : Spellable IsKey (.dict weapon) := by
    refine .dict (by decide) (by decide) (isKeys_of_all (by decide)) ?_
    simp only [weapon, entries, List.map_cons, List.map_nil, List.forall_mem_cons]
    exact ⟨.int _, .int _, List.forall_mem_nil _⟩
  have hplayer : Spellable IsKey (.dict player) := by
    refine .dict (by decide) (by decide) (isKeys_of_all (by decide)) ?_
    simp only [player, entries, List.map_cons, List.map_nil, List.forall_mem_cons]
    refine ⟨.int _, .str _, .bool _, .str _, .int _, ?_, List.forall_mem_nil _⟩
    exact .list (by simp) fun item hitem => List.mem_singleton.mp hitem ▸ hweapon
  refine .dict (by decide) (by decide) (isKeys_of_all (by decide)) ?_
  simp only [onePlayer, entries, List.map_cons, List.map_nil, List.forall_mem_cons]
  refine ⟨.str _, .str _, .int _, .int _, .str _, .str _, .str _, .int _, .int _, .int _, .int _,
    .int _, .int _, .int _, .int _, .int _, ?_, List.forall_mem_nil _⟩
  exact .list (by simp) fun item hitem => List.mem_singleton.mp hitem ▸ hplayer

theorem coercibleReport_onePlayer : CoercibleReport onePlayer := by
  have hweapon : Coercible [] [] weapon := ⟨by decide, by decide, by decide⟩
  have hplayer : CoerciblePlayer player := by
    refine ⟨⟨by decide, by decide, by decide⟩, ?_, ?_⟩
    · rintro value ⟨⟩
    · rintro value ⟨⟩ item hitem
      exact List.mem_singleton.mp hitem ▸ hweapon
  refine ⟨⟨by decide, by decide, by decide⟩, ?_, ?_, ?_⟩
  · rintro value ⟨⟩
  · rintro value ⟨⟩
  · rintro value ⟨⟩ item hitem
    exact List.mem_singleton.mp hitem ▸ hplayer

theorem post_onePlayer : ∃ request, requestSchema id 7 (.dict onePlayer) = some request ∧
    ∀ s : StreamRace.State,
      post id plainLiterals 7 .json (Json.dumps (.dict onePlayer)) 0 s =
          (answer request s, StreamRace.post request 0 s) ∧
        post id plainLiterals 7 .other (toJuliaV1 (treeEntries onePlayer)) 0 s =
          (answer request s, StreamRace.post request 0 s) ∧
        post id plainLiterals 7 .other (toJuliaV2 (treeEntries onePlayer)) 0 s =
          (answer request s, StreamRace.post request 0 s) := by
  have haccepted : (requestSchema id 7 (.dict onePlayer)).isSome = true := by decide +kernel
  obtain ⟨request, haccepted⟩ := Option.isSome_iff_exists.mp haccepted
  exact ⟨request, haccepted, fun s =>
    post_report spellable_onePlayer coercibleReport_onePlayer haccepted 0 s⟩

end Example

end ReportFormats

end Swat4Stats
