import Mathlib.Algebra.Ring.Nat
import Mathlib.Tactic.Common

/-!
# Networks of addresses

A network is the block of the addresses that share their leading bits. Addresses are numbers below
`2 ^ width`, where the width is 32 or 128, and a mask is such a number, too.
-/

namespace Swat4Stats

set_option autoImplicit false

/-- The address of a network is the first of the block: it has no host bits. -/
structure Network (width : ℕ) where
  address : ℕ
  prefixlen : ℕ
  prefixlen_le : prefixlen ≤ width
  address_lt : address < 2 ^ width
  address_mod : address % 2 ^ (width - prefixlen) = 0
  deriving DecidableEq, Repr

namespace Network

variable {width : ℕ}

/-- Nothing when the address has host bits. -/
def ofAddress? (width address prefixlen : ℕ) : Option (Network width) :=
  if h : prefixlen ≤ width ∧ address < 2 ^ width ∧ address % 2 ^ (width - prefixlen) = 0 then
    some ⟨address, prefixlen, h.1, h.2.1, h.2.2⟩
  else
    none

def size (network : Network width) : ℕ := 2 ^ (width - network.prefixlen)

def first (network : Network width) : ℕ := network.address

def last (network : Network width) : ℕ := network.address + network.size - 1

/-- The address without its host bits is the address of the network. -/
def Contains (network : Network width) (address : ℕ) : Prop :=
  address - address % network.size = network.address

instance (network : Network width) (address : ℕ) : Decidable (network.Contains address) :=
  inferInstanceAs (Decidable (_ = _))

theorem size_pos (network : Network width) : 0 < network.size := Nat.two_pow_pos _

theorem contains_iff {network : Network width} {address : ℕ} :
    network.Contains address ↔ network.first ≤ address ∧ address ≤ network.last := by
  have hsize := network.size_pos
  have hmod : network.address % network.size = 0 := network.address_mod
  have hlt : address % network.size < network.size := Nat.mod_lt _ hsize
  have hle : address % network.size ≤ address := Nat.mod_le _ _
  rw [Contains, first, last]
  constructor
  · intro h
    omega
  · rintro ⟨hfirst, hlast⟩
    -- the address is that of the network and its host bits
    obtain ⟨host, rfl⟩ := Nat.exists_eq_add_of_le hfirst
    have hhost : host < network.size := by omega
    rw [Nat.add_mod, hmod, Nat.zero_add, Nat.mod_mod, Nat.mod_eq_of_lt hhost, Nat.add_sub_cancel]

theorem contains_of_ofAddress? {address : ℕ} {network : Network width}
    (h : ofAddress? width address width = some network) : network.Contains address := by
  rw [ofAddress?] at h
  split at h
  · obtain rfl := Option.some.inj h
    simp [Contains, size, Nat.mod_one]
  · cases h

def netmask (width prefixlen : ℕ) : ℕ := 2 ^ width - 2 ^ (width - prefixlen)

/-- The length of the prefix that a mask stands for: leading ones, or else their complement. -/
def prefixlenOfMask (width mask : ℕ) : Option ℕ :=
  let prefixlens := List.range (width + 1)
  match prefixlens.find? fun prefixlen => netmask width prefixlen = mask with
  | some prefixlen => some prefixlen
  | none => prefixlens.find? fun prefixlen => netmask width prefixlen = 2 ^ width - 1 - mask

end Network

end Swat4Stats
