import H8.Ports
import Mathlib.Data.List.Nodup

/-! The devices of a port file have distinct names, so that a name selects one
device. -/

set_option autoImplicit false

namespace H8.Ports

variable {ports selected : Ports} {name : String}

def deviceNames (ports : Ports) : List String := ports.devices.map Device.name

theorem mem_deviceNames : name ∈ ports.deviceNames ↔ ∃ device ∈ ports.devices, device.name = name :=
  List.mem_map

theorem deviceNames_update (ports : Ports) (current : Option String) {change : Device → Device}
    (keeps : ∀ device, (change device).name = device.name) :
    (ports.update current change).deviceNames = ports.deviceNames := by
  cases current with
  | none => rfl
  | some name =>
    simp only [deviceNames, update, List.map_map]
    apply List.map_congr_left
    intro device _
    change (if device.name = name then change device else device).name = device.name
    split
    · exact keeps device
    · rfl

theorem nodup_ensure (distinct : ports.deviceNames.Nodup) (name : String) :
    (ports.ensure name).deviceNames.Nodup := by
  unfold ensure
  split
  · exact distinct
  · next missing =>
    have fresh : name ∉ ports.deviceNames := by simpa [mem_deviceNames] using missing
    have added : ({ ports with devices := ports.devices ++ [.empty name] } : Ports).deviceNames =
        ports.deviceNames ++ [name] := List.map_append
    rw [added]
    exact List.nodup_append.mpr ⟨distinct, by simp, by grind⟩

theorem nodup_addLine {state : Ports × Option String} (distinct : state.1.deviceNames.Nodup)
    (line : Line) : (addLine state line).1.deviceNames.Nodup := by
  cases line with
  | nothing | setDefault _ => exact distinct
  | openSection name => exact nodup_ensure distinct name
  | entry entry =>
    have keeps (device : Device) : (device.addEntry entry).name = device.name := rfl
    exact deviceNames_update state.1 state.2 keeps ▸ distinct
  | port port =>
    have keeps (device : Device) : (device.addPort port).name = device.name := rfl
    exact deviceNames_update state.1 state.2 keeps ▸ distinct

theorem select?_eq_some_iff : ports.select? name = some selected ↔
    name ∈ ports.deviceNames ∧ selected = { ports with active := some name } := by
  have listed : (ports.devices.any fun device => device.name = name) = true ↔ name ∈ ports.deviceNames := by
    simp [mem_deviceNames]
  unfold select?
  rw [Option.ite_none_right_eq_some, listed, Option.some.injEq, eq_comm (a := selected)]

theorem select?_eq_none_iff : ports.select? name = none ↔ name ∉ ports.deviceNames := by
  simp [Option.eq_none_iff_forall_ne_some, select?_eq_some_iff]

theorem deviceNames_select? (found : ports.select? name = some selected) :
    selected.deviceNames = ports.deviceNames := by
  obtain ⟨-, rfl⟩ := select?_eq_some_iff.mp found
  rfl

theorem nodup_parse (text : List Char) : (parse text).deviceNames.Nodup := by
  have lines : (((Text.lines text).map Line.parse).foldl addLine (empty, none)).1.deviceNames.Nodup :=
    List.foldlRecOn (motive := fun state => state.1.deviceNames.Nodup) _ addLine List.nodup_nil
      fun _ distinct line _ => nodup_addLine distinct line
  unfold parse
  dsimp only
  split
  · next name _ =>
    cases found : Ports.select? _ name with
    | none => exact lines
    | some selected =>
      rw [Option.getD_some, deviceNames_select? found]
      exact lines
  · exact lines

theorem exists_activeDevice? (distinct : ports.deviceNames.Nodup) (known : name ∈ ports.deviceNames)
    (active : ports.active = some name) :
    ∃ device ∈ ports.devices, ports.activeDevice? = some device ∧
      ∀ other ∈ ports.devices, other.name = name ↔ other = device := by
  have some : (ports.devices.find? fun device => device.name = name).isSome := by
    simpa [List.find?_isSome, mem_deviceNames] using known
  obtain ⟨device, found⟩ := Option.isSome_iff_exists.mp some
  have member := List.mem_of_find?_eq_some found
  have named : device.name = name := by simpa using List.find?_some found
  refine ⟨device, member, by simp [activeDevice?, active, found], fun other known => ?_⟩
  constructor
  · intro same
    exact List.inj_on_of_nodup_map distinct known member (same.trans named.symm)
  · rintro rfl
    exact named

end H8.Ports
