import H8.Encoding.Table

/-! The opcodes that can start with a given byte, most specific first. -/

set_option autoImplicit false

namespace H8.Encoding

/-- Whether the first opcode is tried strictly before the second: it has more
fixed bits, or as many and is longer. -/
def Opcode.precedes (first second : Opcode) : Bool :=
  second.pattern.fixedBits < first.pattern.fixedBits ||
    (second.pattern.fixedBits = first.pattern.fixedBits &&
      second.pattern.length < first.pattern.length)

/-- Insert an opcode into a ranked list, in front of those of its own rank. -/
def rankInsert (opcode : Opcode) : List Opcode → List Opcode
  | [] => [opcode]
  | first :: rest =>
    if first.precedes opcode then first :: rankInsert opcode rest else opcode :: first :: rest

/-- Rank opcodes by how specific they are, keeping the order of equals. -/
def rank (candidates : List Opcode) : List Opcode := candidates.foldr rankInsert []

def admitted (first : UInt8) : List Opcode :=
  rank (opcodes.filter fun opcode => opcode.pattern.admitsFirst first)

def index : Array (List Opcode) := Array.ofFn fun first : Fin 256 => admitted (UInt8.ofNat first)

def candidates (first : UInt8) : List Opcode := index[first.toNat]?.getD []

end H8.Encoding
