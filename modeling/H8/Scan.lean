import H8.Database
import H8.Effects
import H8.Frame.Prologue

/-! Tracing code from entry points.

Every instruction that is reached is marked and its references are recorded.
Jumps, branches, the elements of jump tables and the following instruction are
followed; so are calls, whose targets become functions. When nothing is left
to follow, every function gets a frame and every referenced location a label.
-/

set_option autoImplicit false

namespace H8

structure Visited where
  addresses : List Address
  distinct : addresses.Nodup

namespace Visited

def empty : Visited := ⟨[], .nil⟩

def add (visited : Visited) (address : Address) (fresh : address ∉ visited.addresses) : Visited :=
  ⟨address :: visited.addresses, List.nodup_cons.mpr ⟨fresh, visited.distinct⟩⟩

theorem length_le (visited : Visited) : visited.addresses.length ≤ UInt32.size := by
  have distinct : (visited.addresses.map UInt32.toNat).Nodup :=
    List.pairwise_map.mpr (visited.distinct.imp fun different same =>
      different (UInt32.toNat_inj.mp same))
  have inside : visited.addresses.map UInt32.toNat ⊆ List.range UInt32.size := by
    intro value member
    obtain ⟨address, _, rfl⟩ := List.mem_map.mp member
    exact List.mem_range.mpr address.toNat_lt_size
  simpa using distinct.length_le_of_subset inside

end Visited

structure Trace where
  database : Database
  visited : Visited
  /-- The addresses to look at, next one first. -/
  pending : List Address
  /-- The number of instructions marked so far. -/
  instructions : Nat
  /-- The number of jump tables found so far. -/
  switches : Nat
  /-- The known targets of references, in the order found. -/
  targets : List (Address × ReferenceKind)
  /-- The addresses that could not be decoded, in the order met. -/
  failures : List (Address × DecodeError)

/-- Record a reference. The target of a call becomes a function. -/
def Database.addReference (database : Database) (reference : Reference) : Database :=
  match reference.target, reference.kind with
  | some target, .subroutine => (database.insertFunction target).insertReference reference
  | _, _ => database.insertReference reference

def Reference.followed? (reference : Reference) : Option Address :=
  if reference.isCode then reference.target else none

def Reference.kindedTarget? (reference : Reference) : Option (Address × ReferenceKind) :=
  reference.target.map fun target => (target, reference.kind)

namespace Trace

/-- Start at the given entries. They become functions. -/
def start (database : Database) (entries : List Address) : Trace where
  database := entries.reverse.foldl Database.insertFunction database
  visited := .empty
  pending := entries
  instructions := 0
  switches := 0
  targets := []
  failures := []

def record (trace : Trace) (instruction : Instruction) (effects : Effects) : Trace :=
  let references := effects.references instruction.address
  let database := match effects.switch with
    | some switch => trace.database.insertSwitch switch
    | none => trace.database
  -- The following instruction comes first: straight code is marked up to a
  -- computed jump before the jump looks back for its table.
  let onward := if effects.flow.fallsThrough then [instruction.next] else []
  { trace with
    database := references.foldl Database.addReference database
    pending := onward ++ (references.filterMap Reference.followed?).reverse ++ trace.pending
    instructions := trace.instructions + 1
    switches := trace.switches + (if effects.switch.isSome then 1 else 0)
    targets := trace.targets ++ references.filterMap Reference.kindedTarget? }

def visit (trace : Trace) (mode : Mode) (address : Address) : Trace :=
  if trace.database.heads.contains address then trace
  else match trace.database.view.decodeAt address mode with
    | .error error => { trace with failures := trace.failures ++ [(address, error)] }
    | .ok instruction =>
      match trace.database.markHead? address instruction.length with
      | none => trace
      | some database =>
        { trace with database }.record instruction (instruction.effects database.view mode)

theorem visited_visit (trace : Trace) (mode : Mode) (address : Address) :
    (trace.visit mode address).visited = trace.visited := by
  unfold visit
  split
  · rfl
  · split
    · rfl
    · split <;> rfl

/-- Look at pending addresses until none is left. Every step visits a new
address or leaves fewer pending ones. -/
def run (mode : Mode) (trace : Trace) : Trace :=
  match _waiting : trace.pending with
  | [] => trace
  | address :: rest =>
    if seen : address ∈ trace.visited.addresses then run mode { trace with pending := rest }
    else
      run mode
        ({ trace with pending := rest, visited := trace.visited.add address seen }.visit mode address)
  termination_by (UInt32.size - trace.visited.addresses.length, trace.pending.length)
  decreasing_by
    · exact Prod.Lex.right _ (by simp [_waiting])
    · apply Prod.Lex.left
      rw [visited_visit]
      have bound := (trace.visited.add address seen).length_le
      simp only [Visited.add, List.length_cons] at bound ⊢
      omega

end Trace

structure ScanReport where
  instructions : Nat
  /-- The entries of all known functions. -/
  functions : List Address
  switches : Nat
  failures : List (Address × DecodeError)
  deriving DecidableEq, Repr

namespace Database

def describeFunction (mode : Mode) (database : Database) (entry : Address) : Database :=
  let database := database.ensureLabel entry .subroutine
  match buildFrame database.view mode entry with
  | .ok frame => database.insertFrame frame
  | .error _ => database

def labelTarget (database : Database) (target : Address × ReferenceKind) : Database :=
  if database.memory.isMapped target.1 then database.ensureLabel target.1 target.2 else database

end Database

def Trace.conclude (mode : Mode) (trace : Trace) : Database × ScanReport :=
  let functions := trace.database.functions.keys
  -- Functions are named before other targets, so that a call target that is
  -- also jumped to keeps the name of a function.
  let described := functions.foldl (Database.describeFunction mode) trace.database
  let labelled := trace.targets.foldl Database.labelTarget described
  (labelled, ⟨trace.instructions, functions, trace.switches, trace.failures⟩)

def Database.scan (database : Database) (entries : List Address) (mode : Mode) :
    Database × ScanReport :=
  (Trace.run mode (.start database entries)).conclude mode

end H8
