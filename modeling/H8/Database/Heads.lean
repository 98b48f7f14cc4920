import H8.AddressMap
import H8.Width

/-! Heads: the addresses at which known instructions start, with their
lengths. Known instructions never overlap. -/

set_option autoImplicit false

namespace H8

abbrev Heads := AddressMap Nat

namespace Heads

def stop (head : Address × Nat) : Address := Address.saturatingAdd head.1 head.2

/-- Whether an instruction would overlap a known one that starts elsewhere. -/
def overlaps (heads : Heads) (address : Address) (length : Nat) : Bool :=
  (heads.below? address).any (fun head => stop head > address) ||
    heads.meets address (Address.saturatingAdd address length)

/-- Add an instruction. A known one of the same length is left as it is; any
other overlap is refused. -/
def mark? (heads : Heads) (address : Address) (length : Nat) : Option Heads :=
  match heads.get? address with
  | some known => if known = length then some heads else none
  | none => if heads.overlaps address length then none else some (heads.insert address length)

def covering? (heads : Heads) (address : Address) : Option (Address × Nat) :=
  (heads.atMost? address).filter fun head => stop head > address

def endingAt? (heads : Heads) (address : Address) : Option Address :=
  ((heads.below? address).filter fun head => head.1 + UInt32.ofNat head.2 = address).map Prod.fst

end Heads

end H8
