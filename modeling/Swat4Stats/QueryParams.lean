import Swat4Stats.LegacyWire

/-!
# Collecting parameters

`parse` collects the values of each key; it is a single text until the key occurs again.
-/

namespace Swat4Stats

set_option autoImplicit false

namespace JuliaQueryString

/-- `parse` on an instance that may have items already. -/
def parseInto (self : Dict) (queryString : Text) : Dict :=
  (parseQuerystring queryString).foldl addParam self

def paramValue : List Text → Value
  | [value] => .str value
  | values => .list (values.map .str)

def named (params : List (Text × Text)) : List (Text × Text) :=
  params.filter fun param => param.1 ≠ []

variable {params : List (Text × Text)} {d : Dict} {key : Text}

theorem foldl_addParam_named (params : List (Text × Text)) (d : Dict) :
    params.foldl addParam d = (named params).foldl addParam d := by
  induction params generalizing d with
  | nil => rfl
  | cons param params ih =>
    obtain hname | hname := eq_or_ne param.1 []
    · have hskip : addParam d param = d := if_pos hname
      rw [List.foldl_cons, hskip, named, List.filter_cons_of_neg (by simpa using hname)]
      exact ih d
    · rw [List.foldl_cons, named, List.filter_cons_of_pos (by simpa using hname), List.foldl_cons]
      exact ih _

theorem get?_collect_ne_nil {values : List Text}
    (h : OrderedDict.get? (OrderedDict.collect params) key = some values) : values ≠ [] := by
  rw [OrderedDict.get?_collect] at h
  split at h
  · rename_i hmem
    obtain ⟨param, hparam, rfl⟩ := List.mem_map.mp hmem
    obtain rfl := Option.some.inj h
    intro hnil
    rw [List.map_eq_nil_iff, List.filter_eq_nil_iff] at hnil
    exact hnil param hparam (decide_eq_true rfl)
  · cases h

theorem addParam_collect {param : Text × Text} (hname : param.1 ≠ []) :
    addParam (OrderedDict.mapValues paramValue (OrderedDict.collect params)) param =
      OrderedDict.mapValues paramValue (OrderedDict.collect (params ++ [param])) := by
  obtain ⟨name, value⟩ := param
  rw [OrderedDict.collect_concat, ← OrderedDict.set_mapValues, addParam, if_neg hname,
    OrderedDict.get?_mapValues]
  cases hget : OrderedDict.get? (OrderedDict.collect params) name with
  | none => rfl
  | some values =>
    cases values with
    | nil => exact absurd rfl (get?_collect_ne_nil hget)
    | cons v values =>
      cases values with
      | nil => rfl
      | cons w values => simp [paramValue]

theorem foldl_addParam_collect (hnames : ∀ param ∈ params, param.1 ≠ []) :
    params.foldl addParam [] = OrderedDict.mapValues paramValue (OrderedDict.collect params) := by
  induction params using List.reverseRecOn with
  | nil => rfl
  | append_singleton params param ih =>
    rw [List.foldl_append, ih fun p hp => hnames p (List.mem_append_left _ hp), List.foldl_cons,
      List.foldl_nil]
    exact addParam_collect (hnames param (by simp))

theorem parse_eq (queryString : Text) : parse queryString =
    OrderedDict.mapValues paramValue
      (OrderedDict.collect (named (parseQuerystring queryString))) := by
  rw [parse, foldl_addParam_named]
  exact foldl_addParam_collect fun param hparam => of_decide_eq_true (List.mem_filter.mp hparam).2

theorem named_parseQuerystring (queryString : Text) : named (parseQuerystring queryString) =
    named (((Text.split ['&'] queryString).filter (· ≠ [])).map parseParam) := by
  have hempty : ∀ segments : List Text, named (segments.map parseParam) =
      named ((segments.filter (· ≠ [])).map parseParam) := by
    intro segments
    induction segments with
    | nil => rfl
    | cons segment segments ih =>
      obtain rfl | hsegment := eq_or_ne segment []
      · have hparam : (parseParam []).1 = [] := rfl
        rw [List.filter_cons_of_neg (by simp), ← ih, List.map_cons, named,
          List.filter_cons_of_neg (by simpa using hparam)]
        rfl
      · rw [List.filter_cons_of_pos (by simpa using hsegment), List.map_cons, List.map_cons, named,
          named, List.filter_cons, List.filter_cons]
        have ih : List.filter _ _ = List.filter _ _ := ih
        rw [ih]
  rw [parseQuerystring, hempty, Text.filter_split_stripBy]

theorem parseInto_append (d : Dict) (a b : Text) :
    parseInto (parseInto d a) b = parseInto d (a ++ '&' :: b) := by
  have hnamed : named (parseQuerystring (a ++ '&' :: b)) =
      named (parseQuerystring a) ++ named (parseQuerystring b) := by
    rw [named_parseQuerystring, named_parseQuerystring, named_parseQuerystring, Text.split_append,
      List.filter_append, List.map_append, named, List.filter_append]
    rfl
  have hinto : ∀ d queryString, parseInto d queryString =
      (named (parseQuerystring queryString)).foldl addParam d :=
    fun d queryString => foldl_addParam_named (parseQuerystring queryString) d
  rw [hinto, hinto, hinto, hnamed, List.foldl_append]

theorem named_urlencode (hnames : ∀ param ∈ params, param.1 ≠ []) :
    named (parseQuerystring (urlencode params)) = params := by
  cases params with
  | nil => rfl
  | cons param params =>
    rw [LegacyWire.parseQuerystring_urlencode (List.cons_ne_nil _ _) hnames, named,
      List.filter_eq_self]
    exact fun param hparam => decide_eq_true (hnames param hparam)

/-- Every value of every key arrives, and a joined query string is parsed as its parts are. -/
theorem parse_spec (params : List (Text × Text)) (hnames : ∀ param ∈ params, param.1 ≠ []) :
    (OrderedDict.keys (parse (urlencode params)) = (params.map Prod.fst).eraseDups ∧
      ∀ key ∈ params.map Prod.fst, OrderedDict.get? (parse (urlencode params)) key =
        some (paramValue ((params.filter fun param => param.1 = key).map Prod.snd))) ∧
    ∀ self a b, parseInto (parseInto self a) b = parseInto self (a ++ '&' :: b) := by
  refine ⟨?_, parseInto_append⟩
  rw [parse_eq, named_urlencode hnames, OrderedDict.keys_mapValues]
  refine ⟨OrderedDict.keys_collect params, ?_⟩
  intro key hkey
  rw [OrderedDict.get?_mapValues, OrderedDict.get?_collect, if_pos hkey, Option.map_some]

theorem parse_spec_repeated :
    OrderedDict.get? (parse (urlencode [(['a'], ['1']), (['b'], []), (['a'], ['2'])])) ['a'] =
      some (.list [.str ['1'], .str ['2']]) :=
  (parse_spec [(['a'], ['1']), (['b'], []), (['a'], ['2'])] (by decide)).1.2 ['a'] (by decide)

end JuliaQueryString

end Swat4Stats
