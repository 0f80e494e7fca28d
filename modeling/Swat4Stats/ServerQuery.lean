import Swat4Stats.Library.OrderedDict
import Swat4Stats.Library.Regex
import Mathlib.Data.List.Sort

/-!
# GameSpy status queries

The packets of a status response and how `ServerStatusTask` puts them together. The datagrams come
in any order and may be repeated, so after each arrival everything received so far is collected
anew, until the number of distinct packets is the order of the final one.
-/

namespace Swat4Stats

set_option autoImplicit false

inductive ResponseError where
  | malformed (message : String)
  | incomplete (received : ℕ) (count : Option ℤ)
  deriving DecidableEq, Repr

namespace ServerStatusTask

abbrev Packet := List UInt8

/-- `latin-1`. -/
def decodeResponse (data : Packet) : Text := data.map fun b => Char.ofNat b.toNat

def pairUp : List Text → List (Text × Text)
  | key :: value :: rest => (key, value) :: pairUp rest
  | _ => []

def parseStatusPayload (data : Text) : List (Text × Text) :=
  pairUp ((Text.split ['\\'] data).drop 1)

structure PacketScan where
  order : Option ℤ := none
  isFinal : Bool := false

def statusresponse : Text := "statusresponse".toList

def queryid : Text := "queryid".toList

def final : Text := "final".toList

def scanParam (scan : PacketScan) (param : Text × Text) : PacketScan :=
  if scan.order = none ∧ (param.1 = statusresponse ∨ param.1 = queryid) then
    match Text.parseInt param.2 with
    -- \queryid\1.1$
    | none => { scan with order := some 1 }
    -- statusresponse is zero based
    | some order =>
      { scan with order := some (if param.1 = statusresponse then order + 1 else order) }
  else if param.1 = final then
    { scan with isFinal := true }
  else
    scan

def scanPacket (packet : Text) : PacketScan := (parseStatusPayload packet).foldl scanParam {}

structure Collected where
  count : Option ℤ := none
  ordered : OrderedDict ℤ Text := []

def collectPacket (collected : Collected) (packet : Text) : Except ResponseError Collected :=
  let scan := scanPacket packet
  match scan.order with
  | none => .error (.malformed "no order specified")
  | some order => .ok
    { count := if scan.isFinal then scan.order else collected.count
      ordered := OrderedDict.set collected.ordered order packet }

/-- `^\\statusresponse\\\d+(.+)\\eof\\$` -/
def statusresponsePattern : Regex :=
  .seq (.text ('\\' :: statusresponse ++ ['\\']))
    (.seq (.plus (.set Char.isDigit))
      (.seq (.group "1" (.plus (.set (· ≠ '\n')))) (.seq (.text "\\eof\\".toList) .endOfText)))

/-- The pattern is anchored, so that `re.sub` replaces one match at most. -/
def normalizeStatusPacket (data : Text) : Text :=
  match statusresponsePattern.matchAt data with
  | none => data
  | some matched => (matched.groups.lookup "1").getD [] ++ matched.rest

def sortedPackets (ordered : OrderedDict ℤ Text) : List Text :=
  (ordered.insertionSort fun a b => a.1 ≤ b.1).map Prod.snd

def collectStatusPayload (packets : List Packet) : Except ResponseError Text := do
  let collected ← (packets.map decodeResponse).foldlM collectPacket {}
  let received := collected.ordered.length
  match collected.count with
  | none => .error (.incomplete received none)
  | some count =>
    if count = 0 ∨ count ≠ received then
      .error (.incomplete received (some count))
    else
      .ok ((sortedPackets collected.ordered).map normalizeStatusPacket).flatten

inductive Received where
  | waiting (packets : List Packet)
  | raised (error : ResponseError)
  | payload (packets : List Packet) (payload : Text)
  deriving DecidableEq, Repr

/-- The receive loop of `start`, for the datagrams that arrive. -/
def receive (packets : List Packet) : List Packet → Received
  | [] => .waiting packets
  | buf :: arrivals =>
    match collectStatusPayload (packets ++ [buf]) with
    | .ok payload => .payload (packets ++ [buf]) payload
    | .error (.incomplete _ _) => receive (packets ++ [buf]) arrivals
    | .error (.malformed message) => .raised (.malformed message)

end ServerStatusTask

end Swat4Stats
