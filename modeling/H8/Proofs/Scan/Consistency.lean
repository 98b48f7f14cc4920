import H8.Proofs.Heads
import H8.Proofs.Scan.Closure
import H8.Proofs.Switch

/-! What scans in one mode keep, however many there are.

Every head is the instruction that its bytes decode to, no two heads share an
address, and every jump table is the one that its jump finds. The last of these
lasts because heads are only added.
-/

set_option autoImplicit false

namespace H8

namespace Memory
variable {memory : Memory} {address : Address} {mode : Mode} {instruction : Instruction}

theorem isMapped_of_decodeAt (decodes : memory.decodeAt address mode = .ok instruction) :
    memory.isMapped address = true :=
  (View.decodeAt_eq_ok_iff.mp decodes).1

theorem proper_of_decodeAt (decodes : memory.decodeAt address mode = .ok instruction) :
    Heads.Proper (address, instruction.length) := by
  have decoded := decode_of_decodeAt decodes
  have short : instruction.length ≤ maxInstructionLength :=
    (length_le_of_decode decoded).trans (length_read_le memory address _)
  exact ⟨length_pos_of_decode decoded, Nat.lt_of_le_of_lt short (by decide),
    low_of_isMapped (isMapped_of_decodeAt decodes)⟩

end Memory

namespace Database

theorem switches_addReference (database : Database) (reference : Reference) :
    (database.addReference reference).switches = database.switches := by
  unfold addReference
  split <;> rfl

theorem switches_describeFunction (mode : Mode) (database : Database) (entry : Address) :
    (database.describeFunction mode entry).switches = database.switches := by
  unfold describeFunction
  dsimp only
  split <;> rfl

theorem switches_labelTarget (database : Database) (target : Address × ReferenceKind) :
    (database.labelTarget target).switches = database.switches := by
  unfold labelTarget
  split <;> rfl

theorem switches_scan (database : Database) (entries : List Address) (mode : Mode) :
    (database.scan entries mode).1.switches =
      (Trace.run mode (.start database entries)).database.switches := by
  unfold scan Trace.conclude
  dsimp only
  rw [foldl_keeps switches switches_labelTarget, foldl_keeps switches (switches_describeFunction mode)]

theorem switches_start (database : Database) (entries : List Address) :
    (Trace.start database entries).database.switches = database.switches :=
  foldl_keeps switches (fun (_ : Database) (entry : Address) => (rfl : (insertFunction _ entry).switches = _))
    _ database

theorem view_extends {database grown : Database} (same : grown.memory = database.memory)
    (apart : database.heads.Apart) (further : grown.heads.Apart)
    (more : database.heads.entries ⊆ grown.heads.entries) : database.view.Extends grown.view := by
  refine ⟨congrArg Memory.read same, congrArg Memory.isMapped same, fun {address previous} found => ?_⟩
  obtain ⟨length, member, ends⟩ := apart.endingAt?_eq_some_iff.mp found
  exact further.endingAt?_eq_some_iff.mpr ⟨length, more member, ends⟩

structure Consistent (memory : Memory) (mode : Mode) (database : Database) : Prop where
  unchanged : database.memory = memory
  decodes : ∀ head ∈ database.heads.entries, ∃ instruction,
    memory.decodeAt head.1 mode = .ok instruction ∧ instruction.length = head.2
  apart : database.heads.Apart
  tables : ∀ entry ∈ database.switches.entries, entry.2.table = entry.1 ∧
    ∃ jump, memory.decodeAt entry.2.jump mode = .ok jump ∧
      findSwitch? database.view mode jump = some entry.2

end Database

theorem Trace.switches_record (trace : Trace) (instruction : Instruction) (effects : Effects) :
    (trace.record instruction effects).database.switches =
      match effects.switch with
      | some table => trace.database.switches.insert table.table table
      | none => trace.database.switches := by
  unfold record
  dsimp only
  rw [foldl_keeps Database.switches Database.switches_addReference]
  cases effects.switch <;> rfl

theorem Instruction.findSwitch?_of_switch? {view : View} {mode : Mode} {instruction : Instruction}
    {table : SwitchTable} (found : instruction.switch? view mode = some table) :
    findSwitch? view mode instruction = some table := by
  unfold switch? at found
  split at found
  · exact found
  · cases found

namespace Database.Consistent
variable {memory : Memory} {mode : Mode} {database : Database}

theorem of_same {other : Database} (consistent : Consistent memory mode database)
    (memories : other.memory = database.memory) (heads : other.heads = database.heads)
    (switches : other.switches = database.switches) : Consistent memory mode other := by
  have extended : database.view.Extends other.view :=
    view_extends memories consistent.apart (heads ▸ consistent.apart) (by rw [heads]; exact fun _ => id)
  refine ⟨memories.trans consistent.unchanged, heads ▸ consistent.decodes, heads ▸ consistent.apart,
    fun entry member => ?_⟩
  obtain ⟨keyed, jump, decodes, found⟩ := consistent.tables entry (switches ▸ member)
  exact ⟨keyed, jump, decodes, findSwitch?_extends extended found⟩

theorem step {trace next : Trace} {now : List Marking}
    (consistent : Consistent memory mode trace.database) (step : Step mode trace now next) :
    Consistent memory mode next.database := by
  cases step with
  | seen _ _ => exact consistent
  | passed _ _ _ => exact consistent
  | @marked address rest instruction marked fresh _ unknown decodes accepted =>
    rw [Database.decodeAt_view, consistent.unchanged] at decodes
    obtain rfl := address_of_decode (Memory.decode_of_decodeAt decodes)
    -- The instruction is marked first; its effects are those it has then.
    have same := Database.markHead?_eq_some unknown accepted
    have heads : marked.heads = trace.database.heads.insert instruction.address instruction.length := by
      rw [same]
    have apart : marked.heads.Apart :=
      (consistent.apart.mark? (Memory.proper_of_decodeAt decodes) (Database.markHead?_heads accepted).1).1
    have earlier : trace.database.view.Extends marked.view :=
      Database.view_extends (by rw [same]) consistent.apart apart
        (heads ▸ AddressMap.subset_insert unknown)
    -- What the effects record beside the table is of no concern here.
    obtain ⟨memories, finals, -⟩ := parts_of_marked unknown accepted
      (trace.take instruction.address rest fresh) (instruction.effects marked.view mode)
    have switches := Trace.switches_record
      { trace.take instruction.address rest fresh with database := marked } instruction
      (instruction.effects marked.view mode)
    generalize Trace.database (Trace.record _ _ _) = final at memories finals switches ⊢
    rw [← heads] at finals
    have later : marked.view.Extends final.view :=
      Database.view_extends (by rw [memories, same]) apart (finals ▸ apart) (by rw [finals]; exact fun _ => id)
    refine ⟨memories.trans consistent.unchanged, fun head member => ?_, finals ▸ apart,
      fun entry member => ?_⟩
    · rw [finals, heads] at member
      rcases AddressMap.mem_insert_iff.mp member with rfl | ⟨known, -⟩
      · exact ⟨instruction, decodes, rfl⟩
      · exact consistent.decodes head known
    · have old (known : entry ∈ marked.switches.entries) : entry.2.table = entry.1 ∧
          ∃ jump, memory.decodeAt entry.2.jump mode = .ok jump ∧
            findSwitch? final.view mode jump = some entry.2 := by
        rw [same] at known
        obtain ⟨keyed, jump, decodes, found⟩ := consistent.tables entry known
        exact ⟨keyed, jump, decodes, findSwitch?_extends later (findSwitch?_extends earlier found)⟩
      rw [switches] at member
      split at member
      · next table made =>
        rcases AddressMap.mem_insert_iff.mp member with rfl | ⟨known, -⟩
        · have found := Instruction.findSwitch?_of_switch? made
          exact ⟨rfl, instruction, (read_of_findSwitch? found).1 ▸ decodes,
            findSwitch?_extends later found⟩
        · exact old known
      · exact old member

theorem scan (consistent : Consistent memory mode database) (entries : List Address) :
    Consistent memory mode (database.scan entries mode).1 := by
  have start := Database.core_start database entries
  have final := Database.core_scan database entries mode
  simp only [Database.core, Prod.mk.injEq] at start final
  obtain ⟨⟨history, runs⟩, -⟩ := exists_runs_run mode (.start database entries)
  have begun : Consistent memory mode (Trace.start database entries).database :=
    consistent.of_same start.1 start.2.1 (Database.switches_start database entries)
  have traced := runs.keeps (fun _ trace => Consistent memory mode trace.database)
    (fun consistent step => consistent.step step) [] begun
  exact traced.of_same final.1 final.2.1 (Database.switches_scan database entries mode)

end Database.Consistent

def Database.scanAll (database : Database) (mode : Mode) (scans : List (List Address)) : Database :=
  scans.foldl (fun database entries => (database.scan entries mode).1) database

theorem Database.consistent_scanAll {memory : Memory} {mode : Mode} (database : Database)
    (consistent : database.Consistent memory mode) (scans : List (List Address)) :
    (database.scanAll mode scans).Consistent memory mode := by
  induction scans generalizing database with
  | nil => exact consistent
  | cons entries scans ih => exact ih _ (consistent.scan entries)

theorem Database.consistent_ofMemory (memory : Memory) (mode : Mode) :
    (Database.ofMemory memory).Consistent memory mode :=
  ⟨rfl, (fun _ member => nomatch member), Heads.apart_empty, (fun _ member => nomatch member)⟩

def Database.Decodes (database : Database) (mode : Mode) (head : Address × Nat) : Prop :=
  (database.view.decodeAt head.1 mode).map Instruction.length = .ok head.2

instance (database : Database) (mode : Mode) (head : Address × Nat) :
    Decidable (database.Decodes mode head) := inferInstanceAs (Decidable (_ = _))

theorem Database.Decodes.proper {database : Database} {mode : Mode} {head : Address × Nat}
    (decodes : database.Decodes mode head) : Heads.Proper head := by
  unfold Decodes at decodes
  cases decoded : database.view.decodeAt head.1 mode with
  | error error =>
    rw [decoded] at decodes
    cases decodes
  | ok instruction =>
    rw [decoded] at decodes
    have proper := Memory.proper_of_decodeAt decoded
    rwa [Except.ok.inj decodes] at proper

theorem Database.extends_markAll {database : Database} {mode : Mode} {calls : List (Address × Nat)}
    (apart : database.heads.Apart) (decodes : ∀ call ∈ calls, database.Decodes mode call) :
    database.view.Extends (database.markAll calls).view := by
  obtain ⟨further, more, -⟩ := database.markAll_grows apart fun call member => (decodes call member).proper
  exact view_extends (database.memory_markAll calls) apart further more

/-- A jump table that was recognized is recognized again whatever instructions
are marked later, so all tables that scans leave behind still belong to their
jumps. -/
theorem recognized_tables_last (mode : Mode) :
    (∀ (database : Database) (calls : List (Address × Nat)) (jump : Instruction) (table : SwitchTable),
      (∀ first ∈ database.heads.entries, ∀ second ∈ database.heads.entries,
        Heads.Overlap first second → first = second) →
      (∀ head ∈ database.heads.entries, database.Decodes mode head) →
      (∀ call ∈ calls, database.Decodes mode call) →
      findSwitch? database.view mode jump = some table →
      findSwitch? (database.markAll calls).view mode jump = some table) ∧
    ∀ (memory : Memory) (scans : List (List Address)),
      let database := (Database.ofMemory memory).scanAll mode scans
      ∀ entry ∈ database.switches.entries, ∃ jump,
        database.view.decodeAt entry.2.jump mode = .ok jump ∧
          findSwitch? database.view mode jump = some entry.2 ∧
          entry.2.targets.length = entry.2.count ∧ 1 ≤ entry.2.count ∧ entry.2.count ≤ 256 := by
  constructor
  · intro database calls jump table disjoint heads decodes found
    have apart : database.heads.Apart := ⟨fun head member => (heads head member).proper, disjoint⟩
    exact findSwitch?_extends (Database.extends_markAll apart decodes) found
  · intro memory scans database entry stored
    have consistent : database.Consistent memory mode :=
      Database.consistent_scanAll _ (Database.consistent_ofMemory memory mode) scans
    obtain ⟨-, jump, decoded, found⟩ := consistent.tables entry stored
    obtain ⟨-, read⟩ := read_of_findSwitch? found
    rw [← consistent.unchanged, ← Database.decodeAt_view] at decoded
    exact ⟨jump, decoded, found, read.count, read.pos, read.few⟩

/-- An instruction in front of the comparison lengthens the way back, and one that
begins inside the load is refused. A second scan starts at the former. -/
theorem recognized_tables_last_more :
    let memory : Memory := .ofImage #[0x00, 0x00, 0xA8, 0x01, 0x44, 0x06, 0x09, 0x00, 0x6F, 0x00, 0x00,
      0x0E, 0x59, 0x00, 0x00, 0x0C] 0
    let mode : Mode := ⟨.h8300h, .normal⟩
    let jump : Instruction := ⟨12, 2, .jmp, none, [.indirect (.general .whole 0)], false, false⟩
    let table : SwitchTable := ⟨12, 14, 2, 1, 12, [12]⟩
    let database := (Database.ofMemory memory).markAll [(2, 2), (4, 2), (6, 2), (8, 4), (12, 2)]
    let scanned := (Database.ofMemory memory).scanAll mode [[2], [0]]
    (findSwitch? database.view mode jump = some table ∧
      findSwitch? (database.markAll [(0, 2), (9, 2)]).view mode jump = some table) ∧
    (14, table) ∈ scanned.switches.entries ∧ ∃ other, scanned.view.decodeAt 12 mode = .ok other ∧
      findSwitch? scanned.view mode other = some table := by
  intro memory mode jump table database scanned
  let begun := (Trace.start (.ofMemory memory) [2]).runFor mode 8
  let resumed := (Trace.start (begun.conclude mode).1 [0]).runFor mode 8
  have facts : (∀ first ∈ database.heads.entries, ∀ second ∈ database.heads.entries,
        Heads.Overlap first second → first = second) ∧
      (∀ head ∈ database.heads.entries, database.Decodes mode head) ∧
      (∀ call ∈ [(0, 2), (9, 2)], database.Decodes mode call) ∧
      findSwitch? database.view mode jump = some table ∧
      begun.pending = [] ∧ resumed.pending = [] ∧
      (14, table) ∈ (resumed.conclude mode).1.switches.entries := by
    decide +kernel
  obtain ⟨disjoint, heads, decodes, found, finished, finished', stored⟩ := facts
  have same : scanned = (resumed.conclude mode).1 := by
    change (((Database.ofMemory memory).scan [2] mode).1.scan [0] mode).1 = _
    rw [Database.scan_eq_runFor 8 finished, Database.scan_eq_runFor 8 finished']
  rw [← same] at stored
  obtain ⟨grown, scans⟩ := recognized_tables_last mode
  obtain ⟨other, decoded, again, -⟩ := scans memory [[2], [0]] (14, table) stored
  exact ⟨⟨found, grown database _ jump table disjoint heads decodes found⟩, stored, other, decoded, again⟩

end H8
