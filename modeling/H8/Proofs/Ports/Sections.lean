import H8.Proofs.Ports
import H8.Proofs.Ports.Lines
import H8.Proofs.Text.Utf8
import Mathlib.Data.List.Induction

/-! The sections of a port file.

Lines are taken in one by one, and each changes the device whose section is open.
What this gives is said by the places of the lines: a device has what stands
below its headers, wherever these are. From then on only the selected device and
the address bits that are compared change.
-/

set_option autoImplicit false

namespace H8.Ports

namespace Line

def header? : Line → Option String
  | .openSection device => some device
  | _ => none

def default? : Line → Option String
  | .setDefault device => some device
  | _ => none

def port? : Line → Option Port
  | .port named => some named
  | _ => none

def entry? : Line → Option Port
  | .entry vector => some vector
  | _ => none

def change : Line → Device → Device
  | .port named, device => device.addPort named
  | .entry vector, device => device.addEntry vector
  | _, device => device

end Line

def lastHeader? (lines : List Line) : Option String := (lines.filterMap Line.header?).getLast?

/-- What the lines below the headers of a device hold, or those in front of all
headers. -/
def below (item? : Line → Option Port) (header : Option String) (lines : List Line) : List Port :=
  lines.zipIdx.filterMap fun (line, position) =>
    if lastHeader? (lines.take position) = header then item? line else none

def deviceBelow (header : Option String) (lines : List Line) : Device where
  name := header.getD ""
  ports := below Line.port? header lines
  entries := below Line.entry? header lines

def ofLines (lines : List Line) : Ports where
  common := deviceBelow none lines
  devices := (lines.filterMap Line.header?).eraseDups.map fun name => deviceBelow (some name) lines
  default := (lines.filterMap Line.default?).getLast?
  active := none
  mask := 0xFFFFFFFF

section Reading

variable {lines : List Line} {line : Line} {header : Option String} {name : String}
  {item? : Line → Option Port}

theorem below_concat (item? : Line → Option Port) (header : Option String) (lines : List Line)
    (line : Line) : below item? header (lines ++ [line]) =
      below item? header lines ++ if lastHeader? lines = header then (item? line).toList else [] := by
  unfold below
  rw [List.zipIdx_append, List.filterMap_append]
  congr 1
  · apply List.filterMap_congr
    rintro ⟨other, position⟩ member
    have inside : position ≤ lines.length := by
      have := List.snd_lt_of_mem_zipIdx member
      omega
    simp [List.take_append_of_le_length inside]
  · by_cases same : lastHeader? lines = header
    · cases found : item? line <;> simp [same, found]
    · simp [same]

theorem below_eq_nil (absent : name ∉ lines.filterMap Line.header?) :
    below item? (some name) lines = [] := by
  refine List.filterMap_eq_nil_iff.mpr fun ⟨line, position⟩ _ => if_neg fun last => absent ?_
  exact ((List.take_sublist position lines).filterMap Line.header?).subset (List.mem_of_getLast? last)

theorem deviceBelow_concat (header : Option String) (lines : List Line) (line : Line) :
    deviceBelow header (lines ++ [line]) =
      if lastHeader? lines = header then line.change (deviceBelow header lines)
      else deviceBelow header lines := by
  simp only [deviceBelow, below_concat]
  split
  · cases line <;> simp [Line.change, Line.port?, Line.entry?, Device.addPort, Device.addEntry]
  · simp

theorem filterMap_concat {Item : Type} (item? : Line → Option Item) (lines : List Line) (line : Line) :
    (lines ++ [line]).filterMap item? = lines.filterMap item? ++ (item? line).toList := by
  cases found : item? line <;> simp [found]

theorem eraseDups_concat (names : List String) (name : String) : (names ++ [name]).eraseDups =
    if name ∈ names then names.eraseDups else names.eraseDups ++ [name] := by
  rw [List.eraseDups_append]
  split
  · next old => simp [List.removeAll, old]
  · next fresh => simp [List.removeAll, fresh, List.eraseDups_cons]

theorem ofLines_concat_item (noHeader : line.header? = none) (noDefault : line.default? = none) :
    ofLines (lines ++ [line]) = (ofLines lines).update (lastHeader? lines) line.change := by
  simp only [ofLines, filterMap_concat, noHeader, noDefault, deviceBelow_concat, Option.toList_none,
    List.append_nil]
  cases last : lastHeader? lines with
  | none => simp [update]
  | some current =>
    simp only [update, List.map_map, reduceCtorEq, if_false, Option.some.injEq]
    congr 1
    apply List.map_congr_left
    intro name _
    simp [deviceBelow, eq_comm]

theorem ofLines_concat_aside (noHeader : line.header? = none)
    (noChange : ∀ device, line.change device = device) : ofLines (lines ++ [line]) =
      { ofLines lines with default := line.default?.or (ofLines lines).default } := by
  have last : (lines.filterMap Line.default? ++ line.default?.toList).getLast? =
      line.default?.or (lines.filterMap Line.default?).getLast? := by
    cases line.default? <;> simp
  simp only [ofLines, filterMap_concat, noHeader, last, deviceBelow_concat, noChange, ite_self,
    Option.toList_none, List.append_nil]

theorem ofLines_concat_openSection (lines : List Line) (name : String) :
    ofLines (lines ++ [.openSection name]) = (ofLines lines).ensure name := by
  have known : ((ofLines lines).devices.any fun device => device.name = name) = true ↔
      name ∈ lines.filterMap Line.header? := by simp [ofLines, deviceBelow]
  unfold ensure
  simp only [known]
  simp only [ofLines, filterMap_concat, Line.header?, Line.default?, deviceBelow_concat, Line.change,
    ite_self, Option.toList_none, Option.toList_some, List.append_nil, eraseDups_concat]
  split
  · rfl
  · next fresh =>
    -- Nothing has been collected for a device before its first header.
    have empty : deviceBelow (some name) lines = .empty name := by
      simp [deviceBelow, below_eq_nil fresh, Device.empty]
    rw [List.map_append, List.map_singleton, empty]

theorem addLine_ofLines (lines : List Line) (line : Line) :
    addLine (ofLines lines, lastHeader? lines) line =
      (ofLines (lines ++ [line]), lastHeader? (lines ++ [line])) := by
  have header : lastHeader? (lines ++ [line]) = line.header?.or (lastHeader? lines) := by
    simp [lastHeader?]
  rw [header]
  cases line with
  | nothing | setDefault _ =>
    rw [ofLines_concat_aside rfl fun _ => rfl]
    rfl
  | openSection name =>
    rw [ofLines_concat_openSection]
    rfl
  | entry _ | port _ =>
    rw [ofLines_concat_item rfl rfl]
    rfl

theorem foldl_addLine (lines : List Line) :
    lines.foldl addLine (empty, none) = (ofLines lines, lastHeader? lines) := by
  induction lines using List.reverseRecOn with
  | nil => rfl
  | append_singleton lines line ih => rw [List.foldl_concat, ih, addLine_ofLines]

theorem deviceNames_ofLines (lines : List Line) :
    (ofLines lines).deviceNames = (lines.filterMap Line.header?).eraseDups := by
  simp only [deviceNames, ofLines, List.map_map]
  exact List.map_id _

def defaultDevice? (lines : List Line) : Option String :=
  (lines.filterMap Line.default?).getLast?.filter (· ∈ (ofLines lines).deviceNames)

theorem defaultDevice?_eq_some_iff (known : name ∈ (ofLines lines).deviceNames) :
    defaultDevice? lines = some name ↔ (lines.filterMap Line.default?).getLast? = some name := by
  rw [defaultDevice?, Option.filter_eq_some_iff]
  exact and_iff_left (decide_eq_true known)

theorem parse_eq (text : List Char) : parse text =
    let lines := (Text.lines text).map Line.parse
    { ofLines lines with active := defaultDevice? lines } := by
  unfold parse
  rw [foldl_addLine]
  generalize (Text.lines text).map Line.parse = lines
  have named : defaultDevice? lines =
      (ofLines lines).default.filter (· ∈ (ofLines lines).deviceNames) := rfl
  dsimp only
  split
  · next name default =>
    rw [default, Option.filter_some] at named
    by_cases known : name ∈ (ofLines lines).deviceNames
    · rw [if_pos (decide_eq_true known)] at named
      rw [named, select?_eq_some_iff.mpr ⟨known, rfl⟩, Option.getD_some]
    · rw [if_neg (by simpa using known)] at named
      rw [named, select?_eq_none_iff.mpr known]
      rfl
  · next default =>
    rw [default, Option.filter_none] at named
    rw [named]
    rfl

def Describes (text : List Char) (readings : List Line) : Prop :=
  ∃ pieces, Text.Divided text pieces ∧ List.Forall₂ Line.Means pieces readings

theorem describes_iff {text : List Char} {readings : List Line} :
    Describes text readings ↔ readings = (Text.lines text).map Line.parse := by
  have means : Line.Means = fun line reading => Line.parse line = reading := by
    funext line reading
    exact propext Line.parse_eq_iff.symm
  simp only [Describes, ← Text.lines_eq_iff, exists_eq_left']
  rw [means, eq_comm, ← List.forall₂_eq_eq_eq, List.forall₂_map_left_iff]

end Reading

section Lookup

variable {ports : Ports} {device : Device}

inductive Request where
  | select (device : String)
  | compare (mask : Address)

/-- The port names after a request. One for an unknown device is refused. -/
def after (ports : Ports) : Request → Ports
  | .select device => (ports.select? device).getD ports
  | .compare mask => ports.withMask mask

theorem after_keeps (ports : Ports) (request : Request) :
    (after ports request).devices = ports.devices ∧ (after ports request).common = ports.common := by
  cases request with
  | select name =>
    simp only [after]
    cases found : ports.select? name with
    | none => exact ⟨rfl, rfl⟩
    | some selected =>
      obtain ⟨-, rfl⟩ := select?_eq_some_iff.mp found
      exact ⟨rfl, rfl⟩
  | compare mask => exact ⟨rfl, rfl⟩

theorem foldl_after_keeps (requests : List Request) (ports : Ports) :
    (requests.foldl after ports).devices = ports.devices ∧
      (requests.foldl after ports).common = ports.common := by
  induction requests generalizing ports with
  | nil => exact ⟨rfl, rfl⟩
  | cons request requests ih =>
    obtain ⟨devices, common⟩ := after_keeps ports request
    rw [List.foldl_cons, (ih _).1, (ih _).2]
    exact ⟨devices, common⟩

theorem activeDevice?_eq_some_iff (distinct : ports.deviceNames.Nodup) :
    ports.activeDevice? = some device ↔ device ∈ ports.devices ∧ ports.active = some device.name := by
  constructor
  · intro found
    obtain ⟨name, active, first⟩ := Option.bind_eq_some_iff.mp found
    have named : device.name = name := by simpa using List.find?_some first
    exact ⟨List.mem_of_find?_eq_some first, named ▸ active⟩
  · rintro ⟨member, active⟩
    obtain ⟨other, -, found, unique⟩ :=
      exists_activeDevice? distinct (mem_deviceNames.mpr ⟨device, member, rfl⟩) active
    rw [found, (unique device member).mp rfl]

theorem find?_eq (ports : Ports) (address : Address) : ports.find? address =
    (ports.activeDevice?.bind fun device => device.ports.find? (ports.answers address)).or
      (ports.common.ports.find? (ports.answers address)) := by
  unfold find?
  dsimp only
  rw [List.find?_append]
  cases ports.activeDevice? <;> rfl

/-- A device that has a section can be selected, and is then looked into first. -/
theorem exists_select? (distinct : ports.deviceNames.Nodup) (member : device ∈ ports.devices) :
    ∃ selected, ports.select? device.name = some selected ∧ ∀ mask address,
      (selected.withMask mask).find? address =
        (device.ports.find? fun port => port.address &&& mask = address &&& mask).or
          (ports.common.ports.find? fun port => port.address &&& mask = address &&& mask) := by
  refine ⟨_, select?_eq_some_iff.mpr ⟨mem_deviceNames.mpr ⟨device, member, rfl⟩, rfl⟩, ?_⟩
  intro mask address
  let chosen : Ports := { ports with active := some device.name, mask }
  have distinct : chosen.deviceNames.Nodup := distinct
  have active : chosen.activeDevice? = some device :=
    (activeDevice?_eq_some_iff distinct).mpr ⟨member, rfl⟩
  change chosen.find? address = _
  rw [find?_eq, active]
  rfl

end Lookup

/-- The port names of a file are those of its lines, section by section: a device
has what stands below its headers, and the rest is shared. A lookup takes the
first port that agrees in the bits that are compared, of the selected device
before the shared ones. -/
theorem read_by_sections (text : String) :
    let ports := parse text.toList
    ofBytes? (Text.bytes text) = some ports ∧
    ∃ lines : List Line,
      (∀ readings, Describes text.toList readings ↔ readings = lines) ∧
      ports.deviceNames.Nodup ∧ ports.deviceNames = (lines.filterMap Line.header?).eraseDups ∧
      (∀ device ∈ ports.devices,
        device.ports = below Line.port? (some device.name) lines ∧
          device.entries = below Line.entry? (some device.name) lines) ∧
      (ports.common.ports = below Line.port? none lines ∧
        ports.common.entries = below Line.entry? none lines) ∧
      (∀ device, ports.activeDevice? = some device ↔
        device ∈ ports.devices ∧ (lines.filterMap Line.default?).getLast? = some device.name) ∧
      ∀ requests : List Request,
        let later := requests.foldl after ports
        (∀ device ∈ ports.devices, ∃ selected, later.select? device.name = some selected ∧
          ∀ mask address, (selected.withMask mask).find? address =
            (device.ports.find? fun port => port.address &&& mask = address &&& mask).or
              (ports.common.ports.find? fun port => port.address &&& mask = address &&& mask)) ∧
        ∀ name ∉ ports.deviceNames, later.select? name = none ∧ after later (.select name) = later := by
  intro ports
  have distinct : ports.deviceNames.Nodup := nodup_parse text.toList
  let lines := (Text.lines text.toList).map Line.parse
  have read : ports = { ofLines lines with active := defaultDevice? lines } := parse_eq text.toList
  refine ⟨?_, lines, fun readings => describes_iff, distinct, ?_, ?_, ?_, ?_, ?_⟩
  · rw [ofBytes?, Text.fromUTF8?_bytes]
    rfl
  · rw [read]
    exact deviceNames_ofLines lines
  · rw [read]
    intro device member
    obtain ⟨name, -, rfl⟩ := List.mem_map.mp member
    exact ⟨rfl, rfl⟩
  · rw [read]
    exact ⟨rfl, rfl⟩
  · intro device
    rw [activeDevice?_eq_some_iff distinct, read]
    refine and_congr_right fun member => defaultDevice?_eq_some_iff ?_
    exact mem_deviceNames.mpr ⟨device, member, rfl⟩
  · intro requests later
    obtain ⟨devices, common⟩ : later.devices = ports.devices ∧ later.common = ports.common :=
      foldl_after_keeps requests ports
    have names : later.deviceNames = ports.deviceNames := congrArg (List.map Device.name) devices
    rw [← names, ← devices, ← common]
    constructor
    · exact fun device => exists_select? (names ▸ distinct)
    · intro name unknown
      have refused := select?_eq_none_iff.mpr unknown
      exact ⟨refused, by rw [after, refused, Option.getD_none]⟩

/-- A file with shared ports, a section that is opened twice and an unknown device. -/
theorem read_by_sections_reopened :
    let ports := parse "CLK 0x10\n.default B\n.A\nTX 5 ; first\n.B\nTX 7\n.A\nRX 0x105 data\n".toList
    let device : Device := ⟨"A", [⟨"TX", 5, none⟩, ⟨"RX", 0x105, some "data"⟩], []⟩
    device ∈ ports.devices ∧ "C" ∉ ports.deviceNames ∧
      (∃ selected, ports.select? "A" = some selected ∧
        (selected.withMask 0xFF).find? 0xFF05 = some ⟨"TX", 5, none⟩ ∧
        (selected.withMask 0xFF).find? 0xFF10 = some ⟨"CLK", 0x10, none⟩ ∧
        (selected.withMask 0xFF).find? 0xFF07 = none) ∧
      ports.select? "C" = none ∧ after ports (.select "C") = ports := by
  intro ports device
  obtain ⟨-, lines, -, -, -, -, -, -, lookup⟩ := read_by_sections
    "CLK 0x10\n.default B\n.A\nTX 5 ; first\n.B\nTX 7\n.A\nRX 0x105 data\n"
  have known : device ∈ ports.devices := by decide +kernel
  have unknown : "C" ∉ ports.deviceNames := by decide +kernel
  obtain ⟨selected, found, finds⟩ := (lookup []).1 device known
  refine ⟨known, unknown, ⟨selected, found, ?_⟩, (lookup []).2 "C" unknown⟩
  simp only [finds]
  decide +kernel

end H8.Ports
