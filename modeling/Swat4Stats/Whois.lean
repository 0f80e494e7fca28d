import Swat4Stats.Geoip
import Swat4Stats.PlayerNames
import Swat4Stats.Library.Network

/-!
# The whois lookup

`_query_ip_address`: what an address is known for without any query, or else what is taken from the
first network of the answer. Whatever raises on the way is a lookup that fails.
-/

namespace Swat4Stats

set_option autoImplicit false

abbrev IPv4Network := Network 32

/-- The name that `ipwhois` has for a reserved address, and the Unicode mapping to lower case. -/
structure WhoisLibraries where
  ipv4IsDefined : IPv4 → Option Text
  lower : Text → Text

/-- One of the `nets` of an answer. A key may be missing, or its value may be `None`. -/
structure WhoisNet where
  cidr : Option Text := none
  description : Option Text := none
  country : Option Text := none
  deriving DecidableEq, Repr

/-- There is no NUL in the texts, and a country has at most two characters. -/
def WhoisNet.Storable (libraries : WhoisLibraries) (net : WhoisNet) : Prop :=
  (∀ text ∈ net.description, Char.ofNat 0 ∉ text) ∧
    ∀ text ∈ net.country, FitsColumn 2 (libraries.lower text)

namespace IPv4Network

/-- The mask of `IPv4Network(...)`: the length of the prefix, a netmask or a hostmask. -/
def parseMask (mask : Text) : Option ℕ :=
  if mask ≠ [] ∧ mask.all Char.isDigit ∧ Nat.ofDigitChars 10 mask 0 ≤ 32 then
    some (Nat.ofDigitChars 10 mask 0)
  else
    (parseIPv4 mask).bind (Network.prefixlenOfMask 32)

/-- `IPv4Network(text)`, with `none` for a `ValueError`. -/
def parse (text : Text) : Option IPv4Network :=
  match Text.split ['/'] text with
  | [address] => do
    let address ← parseIPv4 address
    Network.ofAddress? 32 address 32
  | [address, mask] => do
    let address ← parseIPv4 address
    let prefixlen ← parseMask mask
    Network.ofAddress? 32 address prefixlen
  | _ => none

end IPv4Network

namespace ISPManager

def _formatNetworkDescription (rawDescription : Text) : Option Text :=
  match Text.strip rawDescription with
  | [] => none
  | description => some ((Text.firstLine description).take 255)

/-- The loop of `_pick_proper_cidr_from_list`, which raises at the end of the list. -/
def pickProperCidr (ip : IPv4) : List Text → Option IPv4Network
  | [] => none
  | cidr :: cidrs =>
    match Text.strip cidr with
    | [] => pickProperCidr ip cidrs
    | normalizedCidr => do
      let network ← IPv4Network.parse normalizedCidr
      if network.Contains ip then
        some network
      else
        pickProperCidr ip cidrs

def _pickProperCidrFromList (ip : IPv4) (cidr : Text) : Option IPv4Network :=
  pickProperCidr ip (Text.split [','] cidr)

/-- Several may be given, separated by commas. -/
def properCidr (ip : IPv4) (cidr : Text) : Option IPv4Network :=
  if ',' ∈ cidr then _pickProperCidrFromList ip cidr else IPv4Network.parse cidr

def whoisQueryResult (description country : Option Text) (cidr : IPv4Network) :
    WhoisQueryResult where
  description := description.map String.ofList
  country := country.map String.ofList
  cidrFrom := cidr.first
  cidrTo := cidr.last

/-- An empty text counts as missing. -/
def truthy (text : Option Text) : Option Text := text.filter (· ≠ [])

/-- What is taken from the first network of the answer. -/
def readNetworkData (libraries : WhoisLibraries) (ip : IPv4) (net : WhoisNet) :
    Option WhoisQueryResult := do
  let text ← net.cidr
  let cidr ← properCidr ip text
  if ¬ cidr.first ≤ cidr.last then
    none
  else if ¬ (cidr.first ≤ ip ∧ ip ≤ cidr.last) then
    none
  else
    some (whoisQueryResult ((truthy net.description).bind _formatNetworkDescription)
      ((truthy net.country).map libraries.lower) cidr)

/-- `answer` holds the `nets` that `lookup_whois` returns, and is `none` when it raises. -/
def _queryIpAddress (libraries : WhoisLibraries) (answer : Option (List WhoisNet)) (ip : IPv4) :
    Option WhoisQueryResult :=
  match libraries.ipv4IsDefined ip with
  | some name => (Network.ofAddress? 32 ip 32).map (whoisQueryResult (some name) none)
  | none =>
    match answer with
    | some (net :: _) => readNetworkData libraries ip net
    | _ => none

/-- The columns of a provider take the name and the country. -/
def FitsIspColumns (name country : Option String) : Prop :=
  (∀ text ∈ name, FitsColumn 255 text.toList) ∧ ∀ text ∈ country, FitsColumn 2 text.toList

section Query

variable {libraries : WhoisLibraries} {answer : Option (List WhoisNet)} {ip : IPv4}
  {network : WhoisQueryResult}

theorem readNetworkData_eq_some {net : WhoisNet}
    (h : readNetworkData libraries ip net = some network) :
    ∃ cidr : IPv4Network, (cidr.first ≤ ip ∧ ip ≤ cidr.last) ∧
      network = whoisQueryResult ((truthy net.description).bind _formatNetworkDescription)
        ((truthy net.country).map libraries.lower) cidr := by
  simp only [readNetworkData, Option.bind_eq_bind, Option.bind_eq_some_iff] at h
  obtain ⟨text, -, cidr, -, h⟩ := h
  split at h
  · cases h
  · split at h
    · cases h
    · rename_i haround
      exact ⟨cidr, not_not.mp haround, (Option.some.inj h).symm⟩

theorem around_of_queryIpAddress (h : _queryIpAddress libraries answer ip = some network) :
    network.cidrFrom ≤ ip ∧ ip ≤ network.cidrTo := by
  unfold _queryIpAddress at h
  split at h
  · obtain ⟨cidr, hcidr, rfl⟩ := Option.map_eq_some_iff.mp h
    exact Network.contains_iff.mp (Network.contains_of_ofAddress? hcidr)
  · split at h
    · obtain ⟨cidr, haround, rfl⟩ := readNetworkData_eq_some h
      exact haround
    · cases h

theorem fitsColumn_of_formatNetworkDescription {rawDescription description : Text}
    (hraw : Char.ofNat 0 ∉ rawDescription)
    (h : _formatNetworkDescription rawDescription = some description) :
    FitsColumn 255 description := by
  have hmem : ∀ c ∈ (Text.firstLine (Text.strip rawDescription)).take 255, c ∈ rawDescription := by
    intro c hc
    have hstrip : c ∈ Text.strip rawDescription :=
      (List.takeWhile_prefix _).subset (List.mem_of_mem_take hc)
    exact (List.dropWhile_suffix _).subset ((List.rdropWhile_prefix _ _).subset hstrip)
  unfold _formatNetworkDescription at h
  split at h
  · cases h
  · obtain rfl := Option.some.inj h
    constructor
    · exact List.length_take_le _ _
    · exact fun hnul => hraw (hmem _ hnul)

theorem fitsIspColumns_of_queryIpAddress
    (hname : ∀ name ∈ libraries.ipv4IsDefined ip, FitsColumn 255 name)
    (hnets : ∀ nets ∈ answer, ∀ net ∈ nets, net.Storable libraries)
    (h : _queryIpAddress libraries answer ip = some network) :
    FitsIspColumns network.description network.country := by
  unfold _queryIpAddress at h
  split at h
  · rename_i name hdefined
    obtain ⟨cidr, -, rfl⟩ := Option.map_eq_some_iff.mp h
    constructor
    · rintro _ ⟨⟩
      rw [String.toList_ofList]
      exact hname name hdefined
    · rintro _ ⟨⟩
  · split at h
    · rename_i net nets
      obtain ⟨hdescription, hcountry⟩ := hnets _ rfl net List.mem_cons_self
      obtain ⟨cidr, -, rfl⟩ := readNetworkData_eq_some h
      constructor
      · intro name hmem
        obtain ⟨description, hformat, rfl⟩ := Option.map_eq_some_iff.mp hmem
        obtain ⟨raw, hraw, hformat⟩ := Option.bind_eq_some_iff.mp hformat
        rw [String.toList_ofList]
        exact fitsColumn_of_formatNetworkDescription
          (hdescription raw (Option.filter_eq_some_iff.mp hraw).1) hformat
      · intro country hmem
        obtain ⟨lowered, hlowered, rfl⟩ := Option.map_eq_some_iff.mp hmem
        obtain ⟨raw, hraw, rfl⟩ := Option.map_eq_some_iff.mp hlowered
        rw [String.toList_ofList]
        exact hcountry raw (Option.filter_eq_some_iff.mp hraw).1
    · cases h

end Query

end ISPManager

end Swat4Stats
