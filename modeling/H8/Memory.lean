import H8.Memory.ByteOrder
import H8.Width

/-! Program memory.

Memory is a list of segments. Where segments overlap, the one installed first
supplies the bytes. A read never runs from one segment into another.
-/

set_option autoImplicit false

namespace H8

structure Segment where
  name : String
  start : Address
  data : Array UInt8
  deriving DecidableEq, Repr

namespace Segment

/-- The first address after the segment, or the highest address if the data
runs beyond it. The highest address itself is therefore in no segment. The size
of the data counts modulo 2^32. -/
def stop (segment : Segment) : Address :=
  Address.saturatingAdd segment.start segment.data.size.toUInt32.toNat

def contains (segment : Segment) (address : Address) : Bool :=
  segment.start ≤ address && address < segment.stop

def read (segment : Segment) (address : Address) (count : Nat) : List UInt8 :=
  if segment.contains address then
    let offset := address.toNat - segment.start.toNat
    (segment.data.extract offset (offset + count)).toList
  else []

end Segment

structure Memory where
  segments : List Segment := []
  deriving DecidableEq, Repr

namespace Memory

def empty : Memory := ⟨[]⟩

/-- Add a segment below the ones already there. -/
def install (memory : Memory) (segment : Segment) : Memory :=
  ⟨memory.segments ++ [segment]⟩

def ofImage (image : Array UInt8) (loadAddress : Address) : Memory :=
  empty.install ⟨"ROM", loadAddress, image⟩

def segmentAt? (memory : Memory) (address : Address) : Option Segment :=
  memory.segments.find? fun segment => segment.contains address

def isMapped (memory : Memory) (address : Address) : Bool :=
  (memory.segmentAt? address).isSome

/-- At most the given number of bytes, ending with the segment. -/
def read (memory : Memory) (address : Address) (count : Nat) : List UInt8 :=
  match memory.segmentAt? address with
  | some segment => segment.read address count
  | none => []

def readByte? (memory : Memory) (address : Address) : Option UInt8 :=
  (memory.read address 1).head?

def readNumber? (memory : Memory) (address : Address) (size : Nat) : Option Nat :=
  ByteOrder.big.assemble size (memory.read address size)

end Memory

end H8
