import Swat4Stats.Database

/-!
# Internet providers

`ISPManager`: the provider of an address is the one of the shortest known range around it, or what
a whois lookup says. The lookup itself is a parameter: `none` when it raises.
-/

namespace Swat4Stats

set_option autoImplicit false

open Tx

structure WhoisQueryResult where
  description : Option String
  country : Option String
  cidrFrom : ℕ
  cidrTo : ℕ
  deriving DecidableEq, Repr

namespace ISPManager

/-- `GEOIP_ACCEPTED_IP_LENGTH`. -/
def acceptedIpLength : ℤ := 256 * 256 * 64

def length (range : IpRange) : ℤ :=
  if range.rangeTo > 1 then (range.rangeTo : ℤ) - range.rangeFrom else 0

def shortest (ranges : List IpRange) : List IpRange :=
  ranges.filter fun range => ranges.all fun other => length range ≤ length other

def «match» (pick : ℕ) (ip : IPv4) : DbTx (Option (Option IspId × ℤ)) :=
  read fun db =>
    let ranges := db.ipRanges.rows.filter fun range => range.rangeFrom ≤ ip ∧ ip ≤ range.rangeTo
    (Table.anyRow pick (shortest ranges)).map fun range => (range.isp, length range)

def lookupItem (item : Option String) : Option String := item.filter (· ≠ "")

/-- For a name and a country that the columns take. -/
def createIsp (name country : Option String) : DbTx IspId :=
  statement fun db => .ok (db.isps.nextPk,
    { db with isps := db.isps.create (fun pk => { pk, name, country }) fun _ => rfl })

def createIpRange (rangeFrom rangeTo : ℕ) : DbTx ℕ :=
  statement fun db => .ok (db.ipRanges.nextPk,
    { db with
      ipRanges := db.ipRanges.create (fun pk => { pk, isp := none, rangeFrom, rangeTo })
        fun _ => rfl })

def getOrCreateIsp (name : String) (country : Option String) : DbTx (IspId × Bool) :=
  getOrCreate
    (fun db => db.isps.rows.filter fun isp => isp.name = some name ∧ isp.country = country)
    Isp.pk (createIsp (some name) country)

def obtainIsp (name country : Option String) : DbTx (IspId × Bool) :=
  match name with
  | none => do
    let isp ← createIsp none country
    pure (isp, true)
  | some name => getOrCreateIsp name country

def addIpRange (isp : IspId) (rangePk : ℕ) : DbTx Unit :=
  write fun db => { db with
    ipRanges := db.ipRanges.update (fun range => range.pk = rangePk)
      (fun range => { range with isp := some isp }) fun _ => rfl }

def registerNetwork (network : WhoisQueryResult) : DbTx (Option IspId × Bool) := atomic do
  let known ← read fun db => db.ipRanges.rows.find? fun range =>
    range.rangeFrom = network.cidrFrom ∧ range.rangeTo = network.cidrTo
  match known with
  | some range => pure (range.isp, false)
  | none => do
    let rangePk ← atomic (createIpRange network.cidrFrom network.cidrTo)
    let (isp, created) ← obtainIsp (lookupItem network.description) (lookupItem network.country)
    addIpRange isp rangePk
    pure (some isp, created)

/-- The lookup after no range was found, or only one that is too broad. -/
def matchByWhois (whois : Option WhoisQueryResult) (fallback : Option IspId) :
    DbTx (Option IspId × Bool) :=
  match whois with
  | none => pure (fallback, false)
  | some network => registerNetwork network

def matchOrCreate (pick : ℕ) (whois : Option WhoisQueryResult) (ip : IPv4) :
    DbTx (Option IspId × Bool) := do
  let matched ← ISPManager.match pick ip
  match matched with
  | none => matchByWhois whois none
  | some (isp, length) =>
    if length > acceptedIpLength then
      matchByWhois whois isp
    else
      pure (isp, false)

theorem keeps_matchOrCreate {γ : Type*} {f : Database → γ}
    (hf : ∀ db isps ipRanges, f { db with isps, ipRanges } = f db)
    (pick : ℕ) (whois : Option WhoisQueryResult) (ip : IPv4) :
    Keeps f (matchOrCreate pick whois ip) := by
  have hisps : ∀ name country, Keeps f (createIsp name country) := by
    intro name country
    apply Keeps.statement
    rintro db isp db' ⟨⟩
    exact hf db _ db.ipRanges
  have hranges : ∀ rangeFrom rangeTo, Keeps f (createIpRange rangeFrom rangeTo) := by
    intro rangeFrom rangeTo
    apply Keeps.statement
    rintro db range db' ⟨⟩
    exact hf db db.isps _
  have hobtain : ∀ name country, Keeps f (obtainIsp name country) := by
    intro name country
    cases name with
    | none => exact (hisps _ _).bind fun _ => Keeps.pure
    | some name => exact keeps_getOrCreate (hisps _ _)
  have hnetwork : ∀ network, Keeps f (registerNetwork network) := by
    intro network
    refine Keeps.atomic (Keeps.read.bind fun known => ?_)
    match known with
    | some _ => exact Keeps.pure
    | none =>
      refine (hranges _ _).atomic.bind fun rangePk => (hobtain _ _).bind fun isp => ?_
      exact Keeps.bind (Keeps.write fun db => hf db db.isps _) fun _ => Keeps.pure
  have hwhois : ∀ fallback, Keeps f (matchByWhois whois fallback) := by
    intro fallback
    cases whois with
    | none => exact Keeps.pure
    | some network => exact hnetwork network
  refine Keeps.read.bind fun matched => ?_
  match matched with
  | none => exact hwhois none
  | some (isp, length) =>
    obtain hlength | hlength := Decidable.em (length > acceptedIpLength)
    · simp only [hlength, if_true]
      exact hwhois isp
    · simp only [hlength, if_false]
      exact Keeps.pure

end ISPManager

end Swat4Stats
