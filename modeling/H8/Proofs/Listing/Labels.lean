import H8.Proofs.Listing.Coverage
import H8.Proofs.Symbols

/-! Labels of a listing.

A listing refers to a location by its label, wherever the location is, but it
declares the label only in front of a directive. A label inside plain data
starts a new directive; inside an instruction, a table or reserved space there
is no place for it. With this exception a label that is referred to is declared
once, at its address.
-/

set_option autoImplicit false

namespace H8

open Assembly

namespace Assembly.Term

mutual

def labels : Term → List Label
  | .label name => [name]
  | .dataReference inner | .codeReference inner => labels inner
  | .joined left _ right => labels left ++ labels right
  | .marked _ inner | .tagged inner _ => labels inner
  | .wrapped _ inner _ => labelsAll inner
  | .symbol _ | .literal _ => []

def labelsAll : List Term → List Label
  | [] => []
  | first :: rest => labels first ++ labelsAll rest

end

variable {lookup : Address → Bool → Option Label} {name : Label}

mutual

theorem mem_labels_resolve (term : Term) (member : name ∈ (resolve lookup term).labels) :
    name ∈ term.labels ∨ ∃ address isCode, lookup address isCode = some name := by
  match term with
  | .dataReference inner | .codeReference inner =>
    by_cases pointer : ∃ address, inner = .literal (.pointer address)
    · obtain ⟨address, rfl⟩ := pointer
      rw [resolve] at member
      split at member
      · next found =>
        obtain rfl := List.mem_singleton.mp member
        exact .inr ⟨address, _, found⟩
      · cases member
    · rw [resolve] at member
      · exact mem_labels_resolve inner member
      · exact fun address same => pointer ⟨address, same⟩
  | .joined left mark right =>
    rw [resolve, labels, List.mem_append] at member
    rw [labels, List.mem_append]
    rcases member with first | second
    · exact (mem_labels_resolve left first).imp_left .inl
    · exact (mem_labels_resolve right second).imp_left .inr
  | .marked mark inner => exact mem_labels_resolve inner member
  | .tagged inner mark => exact mem_labels_resolve inner member
  | .wrapped left inner right => exact mem_labels_resolveAll inner member
  | .symbol _ | .literal _ | .label _ => exact .inl member

theorem mem_labels_resolveAll (terms : List Term)
    (member : name ∈ labelsAll (resolveAll lookup terms)) :
    name ∈ labelsAll terms ∨ ∃ address isCode, lookup address isCode = some name := by
  match terms with
  | [] => exact .inl member
  | first :: rest =>
    rw [resolveAll, labelsAll, List.mem_append] at member
    rw [labelsAll, List.mem_append]
    rcases member with here | later
    · exact (mem_labels_resolve first here).imp_left .inl
    · exact (mem_labels_resolveAll rest later).imp_left .inr

end

end Assembly.Term

namespace Assembly
variable {portName : Address → Option String} {isTransfer : Bool}

theorem labels_addressTerm (address : Address) : (addressTerm portName isTransfer address).labels = [] := by
  unfold addressTerm
  split
  · rfl
  · split <;> rfl

theorem labels_operandTerm (operand : Operand) : (operandTerm portName isTransfer operand).labels = [] := by
  cases operand with
  | absolute address field => exact labels_addressTerm address
  | relative target displacement field => cases field <;> rfl
  | _ => rfl

def Directive.labels : Directive → List Label
  | .instruction statement _ => statement.operands.flatMap Term.labels
  | .pointers targets _ => targets.flatMap Term.labels
  | .data _ | .space _ | .label _ | .origin _ | .comment _ => []

/-- Directives that no label can divide. -/
def Directive.isWhole : Directive → Bool
  | .instruction _ _ | .pointers _ _ | .space _ => true
  | .data _ | .label _ | .origin _ | .comment _ => false

namespace Located

/-- The directive stands for an address that is not its first. -/
def Within (row : Located) (address : Address) : Prop :=
  row.location.toNat < address.toNat ∧ address.toNat < row.finish

instance (row : Located) (address : Address) : Decidable (row.Within address) :=
  inferInstanceAs (Decidable (_ ∧ _))

def declares (name : Label) (row : Located) : Bool :=
  match row.directive with
  | .label label => label = name
  | _ => false

end Located

end Assembly

def mentions (rows : List Located) : List Label := rows.flatMap fun row => row.directive.labels

def declarations (name : Label) (rows : List Located) : List Address :=
  (rows.filter (Located.declares name)).map Located.location

theorem declarations_append (name : Label) (first second : List Located) :
    declarations name (first ++ second) = declarations name first ++ declarations name second := by
  simp [declarations]

theorem declarations_block (name : Label) {row : Located} (isBlock : row.isBlock = true) :
    declarations name [row] = [] := by
  unfold Located.isBlock at isBlock
  cases kind : row.directive <;> simp [kind, Directive.isBlock] at isBlock <;>
    simp [declarations, Located.declares, kind]

theorem WrittenAs.label?_of_labels {database : Database} {target : Address} {term : Term}
    (written : WrittenAs database target term) {name : Label} (member : name ∈ term.labels) :
    database.label? target = some name := by
  cases written with
  | label known => exact List.mem_singleton.mp member ▸ known
  | pointer _ => cases member

theorem Listed.label?_of_labels {database : Database} {context : ListingContext} {row : Located}
    (listed : Listed database context row) {name : Label} (member : name ∈ row.directive.labels) :
    ∃ address, database.label? address = some name := by
  cases listed with
  | instruction _ _ _ =>
    obtain ⟨operand, rendered, found⟩ := List.mem_flatMap.mp member
    obtain ⟨term, original, rfl⟩ := List.mem_map.mp rendered
    rcases Term.mem_labels_resolve term found with plain | ⟨address, -, known⟩
    · obtain ⟨operand, -, rfl⟩ := List.mem_map.mp original
      rw [labels_operandTerm] at plain
      cases plain
    · exact ⟨address, known⟩
  | pointers _ _ stored =>
    obtain ⟨term, row, found⟩ := List.mem_flatMap.mp member
    obtain ⟨position, inside, rfl⟩ := List.getElem_of_mem row
    obtain ⟨target, -, written⟩ := stored position inside
    exact ⟨target, written.label?_of_labels found⟩
  | data _ _ _ | space _ _ | label _ | comment _ | origin _ => cases member

namespace Database
variable {memory : Memory} {database : Database} {context : ListingContext} {stop address : Address}
  {rows : List Located}

theorem declarations_heading (database : Database) (address : Address) (name : Label) :
    declarations name (database.heading address) =
      [address].filter fun address => database.label? address = some name := by
  unfold heading
  split
  · next label named =>
    cases database.frames.get? address <;> by_cases same : label = name <;>
      simp [declarations, Located.declares, named, same]
  · next unnamed => simp [declarations, unnamed]

def Named (database : Database) (rows : List Located) : Prop :=
  ∀ name, declarations name rows =
    ((blocks rows).map Located.location).filter fun address => database.label? address = some name

theorem Named.add (named : database.Named rows) (address : Address) {directive : Directive}
    (isBlock : directive.isBlock = true) :
    database.Named (rows ++ (database.heading address ++ [⟨address, directive⟩])) := by
  intro name
  have none : declarations name [⟨address, directive⟩] = [] := declarations_block name isBlock
  rw [blocks_heading database rows address isBlock, declarations_append, declarations_append, none,
    List.append_nil, declarations_heading, named name, List.map_append, List.filter_append]
  rfl

theorem Named.step {rows' : List Located} {next : Address} (named : database.Named rows)
    (consistent : database.Consistent memory context.mode) (inside : address < stop)
    (grows : Grows database context stop rows address rows' next) : database.Named rows' := by
  cases grows with
  | block found => exact named.add address (item_eq_block consistent inside found).2.1
  | start found => exact named.add address rfl
  | more _ _ _ =>
    intro name
    have before := named name
    rw [declarations_append, declarations_block name rfl, blocks_concat _ rfl, List.map_append] at before ⊢
    exact before

end Database

namespace Covers
variable {database : Database} {context : ListingContext} {start stop address : Address}
  {rows : List Located}

/-- A block starts at an address with a label, unless the address is inside of one. -/
theorem mem_locations_iff (covers : Covers database context start stop rows)
    (named : database.label? address ≠ none) (low : start ≤ address) (high : address < stop) :
    address ∈ (blocks rows).map Located.location ↔
      ∀ row ∈ rows, row.directive.isWhole = true → ¬ row.Within address := by
  obtain ⟨finish, tiles, through⟩ := covers.tiles
  rw [UInt32.le_iff_toNat_le] at low
  rw [UInt32.lt_iff_toNat_lt] at high
  rw [List.mem_map]
  constructor
  · rintro ⟨block, starts, rfl⟩ row member whole ⟨below, above⟩
    have size := Listed.size_pos_of_blocks covers.listed block starts
    have isBlock : row.isBlock = true := by
      unfold Located.isBlock
      cases kind : row.directive <;> simp [kind, Directive.isWhole, Directive.isBlock] at whole ⊢
    have same : row = block := tiles.eq_of_holds (List.mem_filter.mpr ⟨member, isBlock⟩) starts
      ⟨Nat.le_of_lt below, above⟩ ⟨Nat.le_refl _, by unfold Located.finish; omega⟩
    rw [same] at below
    omega
  · intro clear
    obtain ⟨row, member, below, above⟩ := tiles.exists_holds low (by omega)
    refine ⟨row, member, ?_⟩
    by_contra other
    have within : row.Within address := by
      refine ⟨Nat.lt_of_le_of_ne below fun same => other (UInt32.toNat_inj.mp same), above⟩
    obtain ⟨member, isBlock⟩ := List.mem_filter.mp member
    cases covers.listed row member with
    | @data location bytes _ _ holds =>
      obtain ⟨low, high⟩ := within
      simp only [Located.finish, Directive.size] at low high
      obtain ⟨here, same, -, -, unnamed⟩ := holds (address.toNat - location.toNat) (by omega)
      obtain rfl : here = address := UInt32.toNat_inj.mp (by omega)
      exact named (unnamed (by omega))
    | instruction _ _ _ | pointers _ _ _ | space _ _ => exact clear _ member rfl within
    | label _ | comment _ | origin _ => cases isBlock

theorem declarations_eq_iff (covers : Covers database context start stop rows)
    (named : database.Named rows) (indexed : database.symbols.Indexed) {name : Label}
    (known : database.label? address = some name) :
    declarations name rows = [address] ↔ address ∈ (blocks rows).map Located.location := by
  obtain ⟨finish, tiles, -⟩ := covers.tiles
  have only (other : Address) : database.label? other = some name ↔ other = address := by
    constructor
    · intro same
      have first := indexed.label?_eq_some_iff_address?.mp same
      have second := indexed.label?_eq_some_iff_address?.mp known
      exact Option.some.inj (first.symm.trans second)
    · rintro rfl
      exact known
  have found : declarations name rows =
      .replicate (((blocks rows).map Located.location).count address) address := by
    rw [named name, ← List.filter_beq]
    refine List.filter_congr fun other _ => Bool.eq_iff_iff.mpr ?_
    rw [decide_eq_true_eq, beq_iff_eq]
    exact only other
  constructor
  · intro once
    have member : address ∈ declarations name rows := by simp [once]
    rw [named name] at member
    exact List.mem_of_mem_filter member
  · intro member
    have distinct := tiles.nodup_locations (Listed.size_pos_of_blocks covers.listed)
    rw [found, List.nodup_iff_count_eq_one.mp distinct address member]
    rfl

end Covers

/-- A listing refers to locations that have the label, and declares it there
once, unless the location is inside of an instruction, a table or reserved
space. -/
theorem mentions_declared_once (memory : Memory) (entries : List Address) (context : ListingContext)
    (start stop : Address) (order : start < stop) :
    let database := ((Database.ofMemory memory).scan entries context.mode).1
    let rows := (database.list context start stop).directives
    ∀ name ∈ mentions rows, ∃ address, database.symbols.address? name = some address ∧
      database.label? address = some name ∧
      (start ≤ address → address < stop → (declarations name rows = [address] ↔
        ∀ row ∈ rows, row.directive.isWhole = true → ¬ row.Within address)) := by
  intro database rows name mentioned
  have consistent : database.Consistent memory context.mode :=
    (Database.consistent_ofMemory memory context.mode).scan entries
  have indexed : database.symbols.Indexed := Database.indexed_scan Symbols.indexed_empty entries context.mode
  have covers : Covers database context start stop rows := Database.list_covers consistent order
  obtain ⟨-, -, named⟩ := Database.list_keeps start consistent (fun rows _ => database.Named rows)
    (fun inside named grows => named.step consistent inside grows) (fun _ => rfl)
  obtain ⟨row, member, refers⟩ := List.mem_flatMap.mp mentioned
  obtain ⟨address, known⟩ := (covers.listed row member).label?_of_labels refers
  refine ⟨address, indexed.label?_eq_some_iff_address?.mp known, known, fun low high => ?_⟩
  rw [covers.declarations_eq_iff named indexed known]
  exact covers.mem_locations_iff (by simp [known]) low high

/-- A branch to the instruction behind it. -/
theorem mentions_declared_once_branch :
    let context : ListingContext := ⟨⟨.h8300h, .normal⟩, fun _ => none⟩
    let database := ((Database.ofMemory (.ofImage #[0x40, 0x00, 0x54, 0x70] 0)).scan [0] context.mode).1
    let rows := (database.list context 0 4).directives
    (0 : Address) < 4 ∧ ⟨"loc_2"⟩ ∈ mentions rows ∧ declarations ⟨"loc_2"⟩ rows = [2] := by
  intro context database rows
  let start := Trace.start (.ofMemory (.ofImage #[0x40, 0x00, 0x54, 0x70] 0)) [0]
  have scanned : database = ((start.runFor context.mode 4).conclude context.mode).1 :=
    congrArg Prod.fst (Database.scan_eq_runFor 4 (by decide +kernel))
  have facts : ⟨"loc_2"⟩ ∈ mentions rows ∧ database.symbols.address? ⟨"loc_2"⟩ = some 2 ∧
      ∀ row ∈ rows, row.directive.isWhole = true → ¬ row.Within 2 := by
    dsimp only [rows]
    rw [scanned]
    decide +kernel
  obtain ⟨mentioned, found, clear⟩ := facts
  obtain ⟨address, found', -, once⟩ := mentions_declared_once (.ofImage #[0x40, 0x00, 0x54, 0x70] 0) [0]
    context 0 4 (by decide) ⟨"loc_2"⟩ mentioned
  obtain rfl := Option.some.inj (found.symm.trans found')
  exact ⟨by decide, mentioned, (once (by decide) (by decide)).mpr clear⟩

/-- A branch into itself refers to its own second byte, which no directive
starts at. -/
theorem mention_can_lack_declaration :
    ¬ ∀ (memory : Memory) (entries : List Address) (context : ListingContext) (start stop : Address),
      start < stop →
      let database := ((Database.ofMemory memory).scan entries context.mode).1
      let rows := (database.list context start stop).directives
      ∀ name ∈ mentions rows, ∀ address, database.symbols.address? name = some address →
        start ≤ address → address < stop → declarations name rows = [address] := by
  intro declared
  let memory : Memory := .ofImage #[0x40, 0xFF] 0
  let context : ListingContext := ⟨⟨.h8300h, .normal⟩, fun _ => none⟩
  have finished : ((Trace.start (.ofMemory memory) [0]).runFor context.mode 3).pending = [] := by
    decide +kernel
  have claimed := declared memory [0] context 0 2 (by decide)
  rw [Database.scan_eq_runFor 3 finished] at claimed
  have facts :
      let database := (((Trace.start (.ofMemory memory) [0]).runFor context.mode 3).conclude context.mode).1
      let rows := (database.list context 0 2).directives
      ⟨"loc_1"⟩ ∈ mentions rows ∧ database.symbols.address? ⟨"loc_1"⟩ = some 1 ∧
        declarations ⟨"loc_1"⟩ rows ≠ [1] := by
    decide +kernel
  obtain ⟨mentioned, found, missing⟩ := facts
  exact missing (claimed ⟨"loc_1"⟩ mentioned 1 found (by decide) (by decide))

end H8
