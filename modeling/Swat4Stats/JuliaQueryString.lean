import Swat4Stats.Library.OrderedDict
import Swat4Stats.Library.PercentEncoding
import Swat4Stats.Library.Regex

/-!
# Legacy query strings

`JuliaQueryString` and the legacy branch of `require_julia_schema`. The expansions walk a copy of
the keys and write the expanded items to the very dict that still has the other raw keys; a key
that is not there when its turn comes would be a `KeyError`, which is `none` here.
-/

namespace Swat4Stats

set_option autoImplicit false

inductive Value where
  | str (s : Text)
  | list (items : List Value)
  | dict (items : List (Text × Value))

abbrev Dict := OrderedDict Text Value

namespace JuliaQueryString

def parseParam (param : Text) : Text × Text :=
  let split := Text.splitFirst '=' (Text.stripBy (· = '=') param)
  (Percent.unquotePlus split.1, split.2.elim [] Percent.unquotePlus)

def parseQuerystring (queryString : Text) : List (Text × Text) :=
  (Text.split ['&'] (Text.stripBy (· = '&') queryString)).map parseParam

def addParam (d : Dict) (param : Text × Text) : Dict :=
  if param.1 = [] then d
  else
    match OrderedDict.get? d param.1 with
    | none => OrderedDict.set d param.1 (.str param.2)
    | some (.list items) => OrderedDict.set d param.1 (.list (items ++ [.str param.2]))
    | some item => OrderedDict.set d param.1 (.list [item, .str param.2])

def parse (queryString : Text) : Dict := (parseQuerystring queryString).foldl addParam []

/-- The write of the last component: `extend` or `append` for an existing list, nothing for an
existing dict. -/
def setItem (d : Dict) (key : Text) (value : Value) : Dict :=
  match OrderedDict.get? d key with
  | none => OrderedDict.set d key value
  | some (.dict _) => d
  | some (.list items) =>
    match value with
    | .list values => OrderedDict.set d key (.list (items ++ values))
    | value => OrderedDict.set d key (.list (items ++ [value]))
  | some item => OrderedDict.set d key (.list [item, value])

def nestedDict (d : Dict) (key : Text) : Dict :=
  match OrderedDict.get? d key with
  | some (.dict items) => items
  | _ => []

def setComplexKeyItem (d : Dict) : List Text → Value → Dict
  | [], _ => d
  | [key], value => setItem d key value
  | key :: next :: keys, value =>
    OrderedDict.set d key (.dict (setComplexKeyItem (nestedDict d key) (next :: keys) value))

/-- The loop over a copy of the keys; `write` stores an item that was just deleted. -/
def expandWith (write : Dict → Text → Value → Dict) (d : Dict) : Option Dict :=
  (OrderedDict.keys d).foldlM (fun d key =>
    (OrderedDict.get? d key).map fun value => write (OrderedDict.erase d key) key value) d

def dotComponents (key : Text) : List Text :=
  ((Text.split ['.'] key).map Text.strip).filter (· ≠ [])

def expandDots : Dict → Option Dict :=
  expandWith fun d key value =>
    match dotComponents key with
    | [] => d
    | components => setComplexKeyItem d components value

def isBracket (c : Char) : Bool := c = '[' ∨ c = ']'

/-- `\[[^\[]+\]` -/
def subkeyPattern : Regex :=
  .seq (.lit '[') (.seq (.plus (.set (· ≠ '['))) (.lit ']'))

/-- `^(?P<key>[^\[\]]+)(?P<dictkeys>(?:\[[^\[]+\])+)?(?P<listkey>\[\])?$` -/
def arrayPattern : Regex :=
  .seq (.group "key" (.plus (.set fun c => !isBracket c)))
    (.seq (.opt (.group "dictkeys" (.plus subkeyPattern)))
      (.seq (.opt (.group "listkey" (.seq (.lit '[') (.lit ']')))) .endOfText))

def arrayComponents (matched : MatchState) : List Text :=
  (matched.groups.lookup "key").getD [] ::
    match matched.groups.lookup "dictkeys" with
    | none => []
    | some dictkeys => Text.split [']', '['] (dictkeys.drop 1).dropLast

def arrayValues : Value → List Value
  | .list values => values
  | value => [value]

def expandArray : Dict → Option Dict :=
  expandWith fun d key dictValue =>
    match arrayPattern.matchAt key with
    | none => d
    | some matched =>
      (arrayValues dictValue).foldl (fun d value =>
        setComplexKeyItem d (arrayComponents matched)
          (if (matched.groups.lookup "listkey").isSome then .list [value] else value)) d

end JuliaQueryString

open JuliaQueryString in
/-- The legacy branch of `require_julia_schema`. -/
def requireJuliaSchema (requestBody : Text) : Option Dict :=
  let juliaParser := parse requestBody
  if (OrderedDict.keys juliaParser).any fun key => key.contains '.' then
    expandDots juliaParser
  else
    expandArray juliaParser

/-- What `ListOrDict` hands to its schema. -/
def listOrDict : Value → Value
  | .dict items => .list (OrderedDict.values items)
  | value => value

end Swat4Stats
