import Mathlib.Data.List.Nodup
import H8.Proofs.Listing.Growth

/-! A listing covers its range.

The directives that stand for bytes follow one another from the start of the
range to its end, and each says what is at its place. So every address of the
range is in exactly one of them, and every known instruction is listed unless a
table lies over it.
-/

set_option autoImplicit false

namespace H8

open Assembly

def Assembly.Directive.isBlock : Directive → Bool
  | .instruction _ _ | .data _ | .pointers _ _ | .space _ => true
  | .label _ | .origin _ | .comment _ => false

def Assembly.Directive.isRemark : Directive → Bool
  | .label _ | .comment _ => true
  | _ => false

def Assembly.Directive.isInstruction : Directive → Bool
  | .instruction _ _ => true
  | _ => false

def Assembly.Directive.isTable : Directive → Bool
  | .pointers _ _ => true
  | _ => false

namespace Assembly.Located

def isBlock (row : Located) : Bool := row.directive.isBlock

def finish (row : Located) : Nat := row.location.toNat + row.directive.size

def Holds (row : Located) (address : Address) : Prop :=
  row.location.toNat ≤ address.toNat ∧ address.toNat < row.finish

end Assembly.Located

def blocks (rows : List Located) : List Located := rows.filter Located.isBlock

theorem blocks_concat (rows : List Located) {row : Located} (isBlock : row.isBlock = true) :
    blocks (rows ++ [row]) = blocks rows ++ [row] := by
  simp [blocks, isBlock]

/-- Each directive starts where the one before it ends. -/
def Tiles : Nat → List Located → Nat → Prop
  | start, [], finish => start = finish
  | start, row :: rest, finish => row.location.toNat = start ∧ Tiles row.finish rest finish

namespace Tiles
variable {start finish : Nat} {rows : List Located}

theorem append_iff {first second : List Located} :
    Tiles start (first ++ second) finish ↔
      ∃ middle, Tiles start first middle ∧ Tiles middle second finish := by
  induction first generalizing start with
  | nil => simp [Tiles]
  | cons row rest ih => simp [Tiles, ih, and_assoc]

theorem concat_iff {row : Located} : Tiles start (rows ++ [row]) finish ↔
    Tiles start rows row.location.toNat ∧ row.finish = finish := by
  simp [append_iff, Tiles]

theorem le_location (tiles : Tiles start rows finish) : ∀ row ∈ rows, start ≤ row.location.toNat := by
  induction rows generalizing start with
  | nil => simp
  | cons first rest ih =>
    obtain ⟨rfl, tiles⟩ := tiles
    intro row member
    rcases List.mem_cons.mp member with rfl | later
    · exact Nat.le_refl _
    · exact (Nat.le_add_right _ _).trans (ih tiles row later)

theorem pairwise (tiles : Tiles start rows finish) :
    rows.Pairwise fun first second => first.finish ≤ second.location.toNat := by
  induction rows generalizing start with
  | nil => exact .nil
  | cons first rest ih => exact .cons tiles.2.le_location (ih tiles.2)

theorem exists_holds (tiles : Tiles start rows finish) {address : Address}
    (low : start ≤ address.toNat) (high : address.toNat < finish) : ∃ row ∈ rows, row.Holds address := by
  induction rows generalizing start with
  | nil =>
    cases tiles
    omega
  | cons first rest ih =>
    obtain ⟨rfl, tiles⟩ := tiles
    by_cases here : address.toNat < first.finish
    · exact ⟨first, .head _, low, here⟩
    · obtain ⟨row, later, holds⟩ := ih tiles (by omega)
      exact ⟨row, .tail _ later, holds⟩

theorem eq_of_holds (tiles : Tiles start rows finish) {first second : Located} (left : first ∈ rows)
    (right : second ∈ rows) {address : Address} (holds : first.Holds address)
    (holds' : second.Holds address) : first = second := by
  induction rows generalizing start with
  | nil => cases left
  | cons row rest ih =>
    obtain ⟨rfl, tiles⟩ := tiles
    unfold Located.Holds at holds holds'
    rcases List.mem_cons.mp left with rfl | below <;> rcases List.mem_cons.mp right with rfl | below'
    · rfl
    · have starts := tiles.le_location second below'
      omega
    · have starts := tiles.le_location first below
      omega
    · exact ih tiles below below'

theorem nodup_locations (tiles : Tiles start rows finish)
    (long : ∀ row ∈ rows, 0 < row.directive.size) : (rows.map Located.location).Nodup := by
  rw [List.Nodup, List.pairwise_map]
  refine tiles.pairwise.imp_of_mem fun {first second} left _ apart same => ?_
  have size := long first left
  unfold Located.finish at apart
  rw [same] at apart
  omega

end Tiles

/-- How an address is written: by its label, if it has one. -/
inductive WrittenAs (database : Database) (target : Address) : Term → Prop
  | label {label : Label} : database.label? target = some label → WrittenAs database target (.codeLabel label)
  | pointer : database.label? target = none → WrittenAs database target (.codePointer target)

theorem writtenAs_targetTerm (database : Database) (target : Address) :
    WrittenAs database target (database.targetTerm target) := by
  unfold Database.targetTerm
  split
  · next known => exact .label known
  · next unknown => exact .pointer unknown

/-- A row says what is at its place. -/
inductive Listed (database : Database) (context : ListingContext) : Located → Prop
  | instruction {head : Address × Nat} {instruction : Instruction} :
      head ∈ database.heads.entries →
      database.view.decodeAt head.1 context.mode = .ok instruction → instruction.length = head.2 →
      Listed database context ⟨head.1, .instruction ((render context.portName instruction).resolve
        fun pointer _ => database.label? pointer) instruction.length⟩
  /-- A label ends a run of data, and an instruction is never part of one. -/
  | data {location : Address} {bytes : List UInt8} :
      0 < bytes.length → bytes.length ≤ dataRunLength →
      (∀ offset < bytes.length, ∃ address : Address, address.toNat = location.toNat + offset ∧
        database.memory.readByte? address = bytes[offset]? ∧
        database.heads.contains address = false ∧ (0 < offset → database.label? address = none)) →
      Listed database context ⟨location, .data bytes⟩
  | pointers {location : Address} {terms : List Term} {size : Nat} :
      0 < terms.length → size = 2 ∨ size = 4 →
      (∀ (position : Nat) (inside : position < terms.length), ∃ target,
        database.view.pointer? context.mode size (location + UInt32.ofNat (position * size)) = some target ∧
          WrittenAs database target terms[position]) →
      Listed database context ⟨location, .pointers terms size⟩
  | space {location : Address} {size : Nat} : 0 < size →
      (∀ address : Address, location.toNat ≤ address.toNat → address.toNat < location.toNat + size →
        database.memory.isMapped address = false) →
      Listed database context ⟨location, .space size⟩
  | label {location : Address} {label : Label} : database.label? location = some label →
      Listed database context ⟨location, .label label⟩
  | comment {location : Address} {frame : Frame} : database.frames.get? location = some frame →
      Listed database context ⟨location, .comment (Database.frameComment frame)⟩
  | origin (location : Address) : Listed database context ⟨location, .origin location⟩

/-- Every remark stands at the place of the block that follows. -/
def Placed : List Located → Prop
  | [] => True
  | row :: rest => (row.directive.isRemark = true →
      (rest.find? Located.isBlock).map Located.location = some row.location) ∧ Placed rest

theorem Placed.append {first second : List Located} (left : Placed first) (right : Placed second) :
    Placed (first ++ second) := by
  induction first with
  | nil => exact right
  | cons row rest ih =>
    rw [List.cons_append]
    refine ⟨fun remark => ?_, ih left.2⟩
    obtain ⟨block, found, same⟩ := Option.map_eq_some_iff.mp (left.1 remark)
    rw [List.find?_append, found]
    simpa using same

theorem Placed.concat {heading : List Located} {block : Located} (isBlock : block.isBlock = true)
    (here : ∀ row ∈ heading, row.location = block.location ∧ row.isBlock = false) :
    Placed (heading ++ [block]) := by
  induction heading with
  | nil =>
    refine ⟨fun remark => ?_, trivial⟩
    unfold Located.isBlock at isBlock
    cases kind : block.directive <;> simp [kind, Directive.isBlock, Directive.isRemark] at isBlock remark
  | cons row rest ih =>
    obtain ⟨same, others⟩ := List.forall_mem_cons.mp here
    rw [List.cons_append]
    refine ⟨fun _ => ?_, ih others⟩
    have none : rest.find? Located.isBlock = none :=
      List.find?_eq_none.mpr fun other member => by simp [(others other member).2]
    rw [List.find?_append, none]
    simp [isBlock, same.1]

theorem Placed.replace {rows : List Located} {block other : Located} (placed : Placed (rows ++ [block]))
    (isBlock : block.isBlock = true) (isBlock' : other.isBlock = true)
    (same : block.location = other.location) : Placed (rows ++ [other]) := by
  induction rows with
  | nil => exact Placed.concat isBlock' (by simp)
  | cons row rest ih =>
    rw [List.cons_append] at placed ⊢
    refine ⟨fun remark => ?_, ih placed.2⟩
    have found := placed.1 remark
    rw [List.find?_append] at found ⊢
    cases first : rest.find? Located.isBlock with
    | some block => simpa [first] using found
    | none => simpa [first, isBlock, isBlock', same] using found

namespace Database
variable {memory : Memory} {database : Database} {context : ListingContext} {stop address : Address}

theorem foldl_min_spec (starts : List Address) (stop : Address) :
    (∀ start ∈ stop :: starts, (starts.foldl min stop).toNat ≤ start.toNat) ∧
      starts.foldl min stop ∈ stop :: starts := by
  induction starts generalizing stop with
  | nil => simp
  | cons first starts ih =>
    obtain ⟨least, member⟩ := ih (min stop first)
    have either : min stop first = stop ∧ stop.toNat ≤ first.toNat ∨
        min stop first = first ∧ first.toNat ≤ stop.toNat := by
      rw [show min stop first = if stop ≤ first then stop else first from rfl]
      split
      · next below => exact .inl ⟨rfl, UInt32.le_iff_toNat_le.mp below⟩
      · next above =>
        rw [UInt32.le_iff_toNat_le] at above
        exact .inr ⟨rfl, by omega⟩
    rw [List.foldl_cons]
    obtain ⟨here, later⟩ := List.forall_mem_cons.mp least
    rcases either with ⟨same, below⟩ | ⟨same, below⟩
    all_goals
      rw [same] at here later member ⊢
      refine ⟨List.forall_mem_cons.mpr ⟨by omega, List.forall_mem_cons.mpr ⟨by omega, later⟩⟩, ?_⟩
      rcases List.mem_cons.mp member with first | other
      · simp [first]
      · exact .tail _ (.tail _ other)

theorem nextMapped_spec (unmapped : database.memory.isMapped address = false) (inside : address < stop) :
    address.toNat < (database.nextMapped address stop).toNat ∧
      ∀ other : Address, address.toNat ≤ other.toNat →
        other.toNat < (database.nextMapped address stop).toNat →
        database.memory.isMapped other = false := by
  have resume : database.nextMapped address stop =
      ((database.memory.segments.map Segment.start).filter (address < ·)).foldl min stop := rfl
  obtain ⟨least, member⟩ := foldl_min_spec
    ((database.memory.segments.map Segment.start).filter (address < ·)) stop
  rw [← resume] at least member
  constructor
  · apply UInt32.lt_iff_toNat_lt.mp
    rcases List.mem_cons.mp member with final | start
    · rw [final]
      exact inside
    · exact of_decide_eq_true (List.mem_filter.mp start).2
  · intro other above below
    apply Bool.eq_false_iff.mpr
    intro mapped
    obtain ⟨segment, known, holds⟩ := Memory.isMapped_iff.mp mapped
    have bounds := Segment.lt_of_contains holds
    -- The segment starts behind the address, or it would hold the address too.
    have later : address.toNat < segment.start.toNat := by
      by_contra early
      have reaches : segment.contains address = true := by
        unfold Segment.contains at holds ⊢
        rw [Bool.and_eq_true, decide_eq_true_eq, decide_eq_true_eq, UInt32.le_iff_toNat_le,
          UInt32.lt_iff_toNat_lt] at holds ⊢
        omega
      rw [Memory.isMapped_iff.mpr ⟨segment, known, reaches⟩] at unmapped
      cases unmapped
    have first := least segment.start (.tail _ (List.mem_filter.mpr
      ⟨List.mem_map_of_mem known, decide_eq_true (UInt32.lt_iff_toNat_lt.mpr later)⟩))
    omega

theorem head_of_knownInstruction? {instruction : Instruction}
    (consistent : database.Consistent memory context.mode)
    (found : database.knownInstruction? context.mode address = some instruction) :
    (address, instruction.length) ∈ database.heads.entries ∧
      database.view.decodeAt address context.mode = .ok instruction := by
  unfold knownInstruction? at found
  split at found
  · next known =>
    obtain ⟨length, member⟩ := AddressMap.contains_iff.mp known
    obtain ⟨decoded, decodes, rfl⟩ := consistent.decodes _ member
    rw [← consistent.unchanged, ← decodeAt_view] at decodes
    dsimp only at decodes member
    rw [decodes] at found
    obtain rfl := Option.some.inj found
    exact ⟨member, decodes⟩
  · cases found

/-- A head always decodes, so where no instruction is listed there is none. -/
theorem not_contains_of_knownInstruction? (consistent : database.Consistent memory context.mode)
    (unknown : database.knownInstruction? context.mode address = none) :
    database.heads.contains address = false := by
  apply Bool.eq_false_iff.mpr
  intro known
  obtain ⟨length, member⟩ := AddressMap.contains_iff.mp known
  obtain ⟨instruction, decodes, -⟩ := consistent.decodes _ member
  rw [← consistent.unchanged, ← decodeAt_view] at decodes
  unfold knownInstruction? at unknown
  rw [if_pos known, decodes] at unknown
  cases unknown

theorem read_of_listedSwitch? {switch : SwitchTable}
    (consistent : database.Consistent memory context.mode)
    (found : database.listedSwitch? address = some switch) :
    switch.table = address ∧ switch.Read database.view context.mode := by
  unfold listedSwitch? at found
  split at found
  · cases found
  · obtain ⟨keyed, jump, -, recognized⟩ := consistent.tables _ (AddressMap.get?_eq_some_iff.mp found)
    exact ⟨keyed, (read_of_findSwitch? recognized).2⟩

theorem item_eq_block {directive : Directive} {next : Address}
    (consistent : database.Consistent memory context.mode) (inside : address < stop)
    (found : database.item context stop address = .block directive next) :
    Listed database context ⟨address, directive⟩ ∧ directive.isBlock = true ∧
      0 < directive.size ∧ next = Address.saturatingAdd address directive.size := by
  unfold item at found
  split at found
  · next outside =>
    obtain ⟨rfl, rfl⟩ := Item.block.inj found
    obtain ⟨onward, unmapped⟩ := nextMapped_spec (by simpa using outside) inside
    have reaches : address.toNat + ((database.nextMapped address stop).toNat - address.toNat) =
        (database.nextMapped address stop).toNat := by omega
    refine ⟨.space (by omega) fun other above below => unmapped other above (by omega), rfl,
      Nat.sub_pos_of_lt onward, UInt32.toNat_inj.mp ?_⟩
    have bound := (database.nextMapped address stop).toNat_lt_size
    simp only [Directive.size]
    rw [Address.toNat_saturatingAdd, reaches]
    omega
  · split at found
    · next switch listed =>
      obtain ⟨rfl, rfl⟩ := Item.block.inj found
      obtain ⟨keyed, read⟩ := read_of_listedSwitch? consistent listed
      have size : (switch.targets.map database.targetTerm).length * switch.elementSize =
          switch.count * switch.elementSize := by rw [List.length_map, read.count]
      have wide : 0 < switch.elementSize := by have := read.size; omega
      refine ⟨.pointers (by rw [List.length_map, read.count]; exact read.pos) read.size
        fun position inside => ?_, rfl, ?_, ?_⟩
      · rw [List.length_map] at inside
        have stored := read.elements position (read.count ▸ inside)
        rw [List.getElem?_eq_getElem inside, keyed] at stored
        refine ⟨_, stored.symm, ?_⟩
        rw [List.getElem_map]
        exact writtenAs_targetTerm database _
      · simp only [Directive.size, size]
        exact Nat.mul_pos read.pos wide
      · simp only [Directive.size, size]
    · split at found
      · next instruction known =>
        obtain ⟨rfl, rfl⟩ := Item.block.inj found
        obtain ⟨member, decodes⟩ := head_of_knownInstruction? consistent known
        rw [decodeAt_view] at decodes
        exact ⟨.instruction member decodes rfl, rfl,
          length_pos_of_decode (Memory.decode_of_decodeAt decodes), rfl⟩
      · cases found

theorem mem_heading {row : Located} (member : row ∈ database.heading address) :
    (∃ frame, database.frames.get? address = some frame ∧
      row = ⟨address, .comment (frameComment frame)⟩) ∨
    ∃ label, database.label? address = some label ∧ row = ⟨address, .label label⟩ := by
  unfold heading at member
  split at member
  · next label named =>
    rcases List.mem_append.mp member with above | last
    · obtain ⟨frame, known, rfl⟩ := Option.map_eq_some_iff.mp (Option.mem_toList.mp above)
      exact .inl ⟨frame, known, rfl⟩
    · exact .inr ⟨label, named, List.mem_singleton.mp last⟩
  · cases member

theorem location_of_heading {row : Located} (member : row ∈ database.heading address) :
    row.location = address ∧ row.isBlock = false := by
  rcases mem_heading member with ⟨frame, -, rfl⟩ | ⟨label, -, rfl⟩ <;> exact ⟨rfl, rfl⟩

theorem listed_heading {row : Located} (member : row ∈ database.heading address) :
    Listed database context row := by
  rcases mem_heading member with ⟨frame, known, rfl⟩ | ⟨label, named, rfl⟩
  · exact .comment known
  · exact .label named

theorem label?_of_heading (empty : database.heading address = []) : database.label? address = none := by
  unfold heading at empty
  split at empty
  · simp at empty
  · assumption

/-- A heading adds no block of its own. -/
theorem blocks_heading (database : Database) (rows : List Located) (address : Address)
    {directive : Directive} (isBlock : directive.isBlock = true) :
    blocks (rows ++ (database.heading address ++ [⟨address, directive⟩])) =
      blocks rows ++ [⟨address, directive⟩] := by
  have none : (database.heading address).filter Located.isBlock = [] :=
    List.filter_eq_nil_iff.mpr fun row member => by simp [(location_of_heading member).2]
  simp [blocks, none, Located.isBlock, isBlock]

end Database

theorem Address.low_of_lt {address stop : Address} (inside : address < stop) :
    address.toNat + 1 < UInt32.size := by
  have below := UInt32.lt_iff_toNat_lt.mp inside
  have bound := stop.toNat_lt_size
  omega

theorem Address.toNat_succ {address stop : Address} (inside : address < stop) :
    (address + 1).toNat = address.toNat + 1 := by
  rw [UInt32.toNat_add]
  exact Nat.mod_eq_of_lt (low_of_lt inside)

namespace Grows
variable {memory : Memory} {database : Database} {context : ListingContext} {stop address next : Address}
  {rows rows' : List Located}

theorem onward (grows : Grows database context stop rows address rows' next)
    (consistent : database.Consistent memory context.mode) (inside : address < stop) : address < next := by
  cases grows with
  | block found =>
    obtain ⟨-, -, pos, rfl⟩ := Database.item_eq_block consistent inside found
    exact (Address.lt_saturatingAdd_iff (Address.low_of_lt inside) _ _).mpr (by omega)
  | start _ | more _ _ _ =>
    rw [UInt32.lt_iff_toNat_lt, Address.toNat_succ inside]
    omega

end Grows

structure Progress (database : Database) (context : ListingContext) (start stop : Address)
    (rows : List Located) (address : Address) : Prop where
  /-- The last block may reach beyond the highest address. -/
  tiles : ∃ finish, Tiles start.toNat (blocks rows) finish ∧ address.toNat = min finish (UInt32.size - 1)
  inside : ∀ row ∈ rows, row.location < stop
  listed : ∀ row ∈ rows, Listed database context row
  placed : Placed rows

namespace Progress
variable {memory : Memory} {database : Database} {context : ListingContext} {start stop address : Address}
  {rows : List Located}

theorem tiles_to (progress : Progress database context start stop rows address) (inside : address < stop) :
    Tiles start.toNat (blocks rows) address.toNat := by
  obtain ⟨finish, tiles, reached⟩ := progress.tiles
  have low := Address.low_of_lt inside
  obtain rfl : finish = address.toNat := by omega
  exact tiles

theorem add (progress : Progress database context start stop rows address) (inside : address < stop)
    {directive : Directive} (listed : Listed database context ⟨address, directive⟩)
    (isBlock : directive.isBlock = true) {next : Address}
    (onward : next.toNat = min (address.toNat + directive.size) (UInt32.size - 1)) :
    Progress database context start stop
      (rows ++ (database.heading address ++ [⟨address, directive⟩])) next := by
  have here : ∀ row ∈ database.heading address ++ [⟨address, directive⟩],
      row.location = address ∧ Listed database context row := by
    intro row member
    rcases List.mem_append.mp member with above | last
    · exact ⟨(Database.location_of_heading above).1, Database.listed_heading above⟩
    · obtain rfl := List.mem_singleton.mp last
      exact ⟨rfl, listed⟩
  refine ⟨⟨_, ?_, onward⟩, fun row member => ?_, fun row member => ?_, ?_⟩
  · rw [Database.blocks_heading database rows address isBlock]
    exact Tiles.concat_iff.mpr ⟨progress.tiles_to inside, rfl⟩
  · rcases List.mem_append.mp member with old | new
    · exact progress.inside row old
    · exact (here row new).1 ▸ inside
  · rcases List.mem_append.mp member with old | new
    · exact progress.listed row old
    · exact (here row new).2
  · exact progress.placed.append (.concat isBlock fun row member => Database.location_of_heading member)

theorem extend {first : Address} {bytes : List UInt8} {byte : UInt8}
    (progress : Progress database context start stop (rows ++ [⟨first, .data bytes⟩]) address)
    (inside : address < stop) (room : bytes.length < dataRunLength)
    (read : database.memory.readByte? address = some byte)
    (code : database.heads.contains address = false) (unnamed : database.label? address = none) :
    Progress database context start stop (rows ++ [⟨first, .data (bytes ++ [byte])⟩]) (address + 1) := by
  have last : (⟨first, .data bytes⟩ : Located) ∈ rows ++ [⟨first, .data bytes⟩] := by simp
  have tiles := progress.tiles_to inside
  rw [blocks_concat rows rfl, Tiles.concat_iff] at tiles
  obtain ⟨tiles, reached⟩ := tiles
  have reached : first.toNat + bytes.length = address.toNat := reached
  have listed : Listed database context ⟨first, .data (bytes ++ [byte])⟩ := by
    cases progress.listed _ last with
    | data pos _ holds =>
      refine .data (by simp) (by simpa using Nat.succ_le_of_lt room) fun offset below => ?_
      rw [List.length_append, List.length_singleton] at below
      by_cases old : offset < bytes.length
      · rw [List.getElem?_append_left old]
        exact holds offset old
      · obtain rfl : offset = bytes.length := by omega
        exact ⟨address, reached.symm, by simpa using read, code, fun _ => unnamed⟩
  have low := Address.low_of_lt inside
  refine ⟨⟨address.toNat + 1, ?_, ?_⟩, fun row member => ?_, fun row member => ?_,
    progress.placed.replace rfl rfl rfl⟩
  · rw [blocks_concat rows rfl, Tiles.concat_iff]
    refine ⟨tiles, ?_⟩
    simp only [Located.finish, Directive.size, List.length_append, List.length_singleton]
    omega
  · rw [Address.toNat_succ inside]
    omega
  · rcases List.mem_append.mp member with old | new
    · exact progress.inside row (List.mem_append_left _ old)
    · obtain rfl := List.mem_singleton.mp new
      exact progress.inside ⟨first, .data bytes⟩ last
  · rcases List.mem_append.mp member with old | new
    · exact progress.listed row (List.mem_append_left _ old)
    · obtain rfl := List.mem_singleton.mp new
      exact listed

theorem step {rows' : List Located} {next : Address}
    (progress : Progress database context start stop rows address)
    (consistent : database.Consistent memory context.mode) (inside : address < stop)
    (grows : Grows database context stop rows address rows' next) :
    Progress database context start stop rows' next := by
  cases grows with
  | block found =>
    obtain ⟨listed, isBlock, -, rfl⟩ := Database.item_eq_block consistent inside found
    exact progress.add inside listed isBlock (Address.toNat_saturatingAdd _ _)
  | @start _ _ byte found =>
    obtain ⟨_, same, read, unknown⟩ := Database.item_eq_bytes found
    obtain rfl := (List.cons.inj same).1
    have code := Database.not_contains_of_knownInstruction? consistent unknown
    have low := Address.low_of_lt inside
    refine progress.add inside (.data (by simp) (by simp [dataRunLength]) fun offset below => ?_) rfl ?_
    · obtain rfl : offset = 0 := by simpa using below
      exact ⟨address, rfl, by simpa using read, code, fun later => absurd later (Nat.lt_irrefl 0)⟩
    · rw [Address.toNat_succ inside]
      simp only [Directive.size, List.length_singleton]
      omega
  | more found unheaded room =>
    obtain ⟨_, same, read, unknown⟩ := Database.item_eq_bytes found
    obtain rfl := (List.cons.inj same).1
    exact progress.extend inside room read (Database.not_contains_of_knownInstruction? consistent unknown)
      (Database.label?_of_heading unheaded)

end Progress

theorem Database.list_keeps {memory : Memory} {database : Database} {context : ListingContext}
    {stop : Address} (start : Address) (consistent : database.Consistent memory context.mode)
    (invariant : List Located → Address → Prop)
    (kept : ∀ {rows rows' : List Located} {address next : Address}, address < stop →
      invariant rows address → Grows database context stop rows address rows' next →
      invariant rows' next)
    (holds : invariant [⟨start, .origin start⟩] start) :
    ∃ last, ¬ last < stop ∧ invariant (database.list context start stop).directives last := by
  refine Listing.complete_keeps invariant
    (fun inside holds grows => ⟨kept inside holds grows, grows.onward consistent inside⟩) ?_ ?_
  · exact Nat.zero_lt_succ _
  · exact holds

/-- A listing stands for each address of its range once, and says what is there. -/
structure Covers (database : Database) (context : ListingContext) (start stop : Address)
    (rows : List Located) : Prop where
  tiles : ∃ finish, Tiles start.toNat (blocks rows) finish ∧ stop.toNat ≤ finish
  inside : ∀ row ∈ blocks rows, row.location < stop
  listed : ∀ row ∈ rows, Listed database context row
  placed : Placed rows
  /-- A table hides the instructions that it lies over. -/
  once : ∀ head ∈ database.heads.entries, start ≤ head.1 → head.1 < stop →
    (∀ row ∈ rows, row.directive.isTable = true → ¬ row.Holds head.1) →
    rows.countP (fun row => row.directive.isInstruction && row.location == head.1) = 1

namespace Listed
variable {memory : Memory} {database : Database} {context : ListingContext} {row : Located}

theorem size_pos (listed : Listed database context row) (isBlock : row.isBlock = true) :
    0 < row.directive.size := by
  cases listed with
  | instruction _ decodes _ =>
    rw [Database.decodeAt_view] at decodes
    exact length_pos_of_decode (Memory.decode_of_decodeAt decodes)
  | data long _ _ => exact long
  | pointers long size _ => exact Nat.mul_pos long (by omega)
  | space long _ => exact long
  | label _ | comment _ | origin _ => cases isBlock

theorem size_pos_of_blocks {rows : List Located} (listed : ∀ row ∈ rows, Listed database context row) :
    ∀ row ∈ blocks rows, 0 < row.directive.size := by
  intro row member
  obtain ⟨member, isBlock⟩ := List.mem_filter.mp member
  exact (listed row member).size_pos isBlock

/-- Of all blocks, only a table or its own directive can lie over a head. -/
theorem instruction_of_holds (listed : Listed database context row) (isBlock : row.isBlock = true)
    (consistent : database.Consistent memory context.mode) {head : Address × Nat}
    (known : head ∈ database.heads.entries) (holds : row.Holds head.1)
    (other : row.directive.isTable = false) :
    row.directive.isInstruction = true ∧ row.location = head.1 := by
  obtain ⟨low, high⟩ := holds
  cases listed with
  | @instruction head' instruction member _ length =>
    have pos := (consistent.apart.proper head known).pos
    simp only [Located.finish, Directive.size, length] at low high
    have overlap : Heads.Overlap head' head := ⟨by omega, by omega⟩
    exact ⟨rfl, congrArg Prod.fst (consistent.apart.eq_of_overlap _ member _ known overlap)⟩
  | @data location bytes _ _ holds =>
    simp only [Located.finish, Directive.size] at low high
    obtain ⟨address, same, -, code, -⟩ := holds (head.1.toNat - location.toNat) (by omega)
    obtain rfl : address = head.1 := UInt32.toNat_inj.mp (by omega)
    rw [AddressMap.contains_iff.mpr ⟨head.2, known⟩] at code
    cases code
  | pointers _ _ _ => cases other
  | space _ unmapped =>
    obtain ⟨instruction, decodes, -⟩ := consistent.decodes head known
    have free := unmapped head.1 low high
    rw [consistent.unchanged, Memory.isMapped_of_decodeAt decodes] at free
    cases free
  | label _ | comment _ | origin _ => cases isBlock

end Listed

theorem Progress.covers {memory : Memory} {database : Database} {context : ListingContext}
    {start stop last : Address} {rows : List Located}
    (progress : Progress database context start stop rows last)
    (consistent : database.Consistent memory context.mode) (reached : ¬ last < stop) :
    Covers database context start stop rows := by
  obtain ⟨finish, tiles, same⟩ := progress.tiles
  rw [UInt32.lt_iff_toNat_lt] at reached
  have through : stop.toNat ≤ finish := by omega
  have long := Listed.size_pos_of_blocks progress.listed
  refine ⟨⟨finish, tiles, through⟩, fun row member => progress.inside row (List.mem_of_mem_filter member),
    progress.listed, progress.placed, fun head known low high clear => ?_⟩
  rw [UInt32.le_iff_toNat_le] at low
  rw [UInt32.lt_iff_toNat_lt] at high
  have instruction_of_holds : ∀ row ∈ blocks rows, row.Holds head.1 →
      row.directive.isInstruction = true ∧ row.location = head.1 := by
    intro row member holds
    obtain ⟨member, isBlock⟩ := List.mem_filter.mp member
    refine (progress.listed row member).instruction_of_holds isBlock consistent known holds ?_
    exact Bool.eq_false_iff.mpr fun table => clear row member table holds
  -- So the rows counted are the blocks at the head, and blocks have places of their own.
  have counted : rows.countP (fun row => row.directive.isInstruction && row.location == head.1) =
      ((blocks rows).map Located.location).count head.1 := by
    rw [List.count_eq_countP, List.countP_map, blocks, List.countP_filter]
    refine List.countP_congr fun row member => ?_
    simp only [Function.comp_apply, Bool.and_eq_true, beq_iff_eq]
    constructor
    · rintro ⟨isInstruction, here⟩
      refine ⟨here, ?_⟩
      unfold Located.isBlock
      cases kind : row.directive <;> simp [kind, Directive.isInstruction, Directive.isBlock] at isInstruction ⊢
    · rintro ⟨here, isBlock⟩
      have block : row ∈ blocks rows := List.mem_filter.mpr ⟨member, isBlock⟩
      have size := long row block
      have holds : row.Holds head.1 := ⟨by rw [here], by rw [← here, Located.finish]; omega⟩
      exact ⟨(instruction_of_holds row block holds).1, here⟩
  obtain ⟨row, member, holds⟩ := tiles.exists_holds low (by omega)
  rw [counted]
  apply List.nodup_iff_count_eq_one.mp (tiles.nodup_locations long)
  exact List.mem_map.mpr ⟨row, member, (instruction_of_holds row member holds).2⟩

theorem Database.list_covers {memory : Memory} {database : Database} {context : ListingContext}
    {start stop : Address} (consistent : database.Consistent memory context.mode) (order : start < stop) :
    Covers database context start stop (database.list context start stop).directives := by
  have begun : Progress database context start stop [⟨start, .origin start⟩] start := by
    have below := start.toNat_lt_size
    refine ⟨⟨start.toNat, rfl, by omega⟩, ?_, ?_, ?_⟩
    · simpa using order
    · simpa using Listed.origin start
    · exact ⟨(fun remark => nomatch remark), trivial⟩
  obtain ⟨last, reached, progress⟩ := Database.list_keeps start consistent
    (Progress database context start stop)
    (fun inside progress grows => progress.step consistent inside grows) begun
  exact progress.covers consistent reached

def Assembly.Term.target? : Term → Option (Label ⊕ Address)
  | .codeReference (.label name) => some (.inl name)
  | .codeReference (.literal (.pointer address)) => some (.inr address)
  | _ => none

end H8
