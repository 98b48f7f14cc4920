import H8.Processor
import H8.Proofs.Ports

/-! The life of a processor.

Modes, devices and port names change by calls, each of which may fail halfway.
One relation says all that a call can leave behind. From it follows what holds
of the loaded port names after any calls: they go with the settings.
-/

set_option autoImplicit false

namespace H8

/-- Whether port names compare the address bits of a mode and have the device of
the settings selected. -/
structure Ports.Fit (ports : Ports) (config : Config) : Prop where
  mask : ports.mask = config.mode.addressMask
  distinct : ports.deviceNames.Nodup
  device : ∀ name, config.device = some name → ports.active = some name ∧ name ∈ ports.deviceNames

theorem Ports.nodup_ofBytes? {bytes : List UInt8} {ports : Ports} (read : ofBytes? bytes = some ports) :
    ports.deviceNames.Nodup := by
  obtain ⟨text, -, rfl⟩ := Option.map_eq_some_iff.mp read
  exact nodup_parse text.toList

namespace Processor

inductive Call where
  | setMode (mode : Mode)
  | reload (contents : Except FileError (List UInt8))
  | selectDevice (name : String)
  | reset

namespace Call

def perform : Call → Change Unit
  | .setMode mode => modify fun processor => processor.setMode mode
  | .reload contents => Change.reload contents
  | .selectDevice name => Change.selectDevice name
  | .reset => modify Processor.reset

/-- The processor that a call leaves behind, whether it fails or not. -/
def after (processor : Processor) (call : Call) : Processor :=
  match call.perform.run processor with
  | .ok _ changed => changed
  | .error _ changed => changed

end Call

variable {processor : Processor}

inductive Performs (processor : Processor) :
    Call → EStateM.Result SymbolError Processor Unit → Prop where
  | setMode (mode : Mode) : Performs processor (.setMode mode) (.ok () (processor.setMode mode))
  | unloaded {contents : Except FileError (List UInt8)} (absent : processor.config.portFile = none) :
      Performs processor (.reload contents) (.ok () { processor with ports := none })
  | loaded {path : String} {bytes : List UInt8} {ports : Ports}
      (file : processor.config.portFile = some path) (read : Ports.ofBytes? bytes = some ports)
      (unset : processor.config.device = none) :
      Performs processor (.reload (.ok bytes))
        (.ok () { processor with ports := some (ports.withMask processor.mode.addressMask) })
  | loadedFor {path device : String} {bytes : List UInt8} {ports selected : Ports}
      (file : processor.config.portFile = some path) (read : Ports.ofBytes? bytes = some ports)
      (set : processor.config.device = some device) (found : ports.select? device = some selected) :
      Performs processor (.reload (.ok bytes))
        (.ok () { processor with ports := some (selected.withMask processor.mode.addressMask) })
  | chosen {name : String} (absent : processor.ports = none) :
      Performs processor (.selectDevice name)
        (.ok () { processor with config := { processor.config with device := some name } })
  | selected {name : String} {ports selected : Ports} (present : processor.ports = some ports)
      (found : ports.select? name = some selected) :
      Performs processor (.selectDevice name)
        (.ok () ⟨{ processor.config with device := some name }, some selected⟩)
  | reset : Performs processor .reset (.ok () {})
  | unreadable {path : String} {cause : FileError} (file : processor.config.portFile = some path) :
      Performs processor (.reload (.error cause)) (.error (.file cause) processor)
  | notText {path : String} {bytes : List UInt8} (file : processor.config.portFile = some path)
      (unread : Ports.ofBytes? bytes = none) :
      Performs processor (.reload (.ok bytes)) (.error (.file .notText) processor)
  | notLoaded {path device : String} {bytes : List UInt8} {ports : Ports}
      (file : processor.config.portFile = some path) (read : Ports.ofBytes? bytes = some ports)
      (set : processor.config.device = some device) (missing : ports.select? device = none) :
      Performs processor (.reload (.ok bytes)) (.error (.unknownDevice device) processor)
  | notSelected {name : String} {ports : Ports} (present : processor.ports = some ports)
      (missing : ports.select? name = none) :
      Performs processor (.selectDevice name) (.error (.unknownDevice name) processor)

theorem Change.run_select (ports : Ports) (device : String) (processor : Processor) :
    (Change.select ports device).run processor =
      match ports.select? device with
      | some selected => .ok selected processor
      | none => .error (.unknownDevice device) processor := by
  unfold Change.select
  cases ports.select? device <;> rfl

theorem performs_reload (contents : Except FileError (List UInt8)) (processor : Processor) :
    Performs processor (.reload contents) ((Change.reload contents).run processor) := by
  simp only [Change.reload, EStateM.run_bind, EStateM.run_get]
  cases file : processor.config.portFile with
  | none => exact .unloaded file
  | some path =>
    cases contents with
    | error cause => exact .unreadable file
    | ok bytes =>
      simp only [EStateM.run_bind, EStateM.run_pure]
      cases read : Ports.ofBytes? bytes with
      | none => exact .notText file read
      | some ports =>
        cases set : processor.config.device with
        | none => exact .loaded file read set
        | some device =>
          simp only [EStateM.run_bind, Change.run_select]
          cases found : ports.select? device with
          | none => exact .notLoaded file read set found
          | some selected => exact .loadedFor file read set found

theorem performs_selectDevice (name : String) (processor : Processor) :
    Performs processor (.selectDevice name) ((Change.selectDevice name).run processor) := by
  simp only [Change.selectDevice, EStateM.run_bind, EStateM.run_get]
  cases present : processor.ports with
  | none => exact .chosen present
  | some ports =>
    simp only [EStateM.run_bind, Change.run_select]
    cases found : ports.select? name with
    -- The settings are still the old ones when the selection fails.
    | none => exact .notSelected present found
    | some selected => exact .selected present found

theorem performs (call : Call) (processor : Processor) :
    Performs processor call (call.perform.run processor) := by
  cases call with
  | setMode mode => exact .setMode mode
  | reload contents => exact performs_reload contents processor
  | selectDevice name => exact performs_selectDevice name processor
  | reset => exact .reset

def Consistent (processor : Processor) : Prop :=
  ∀ ports, processor.ports = some ports → ports.Fit processor.config

theorem Consistent.after (consistent : processor.Consistent) (call : Call) :
    (call.after processor).Consistent := by
  have step := performs call processor
  unfold Call.after
  generalize call.perform.run processor = result at step ⊢
  cases step with
  | setMode mode =>
    intro ports loaded
    obtain ⟨before, present, rfl⟩ := Option.map_eq_some_iff.mp loaded
    obtain ⟨-, distinct, device⟩ := consistent before present
    exact ⟨rfl, distinct, device⟩
  | unloaded _ | reset => rintro ports ⟨⟩
  | loaded _ read unset =>
    rintro ports ⟨rfl⟩
    have distinct := Ports.nodup_ofBytes? read
    exact ⟨rfl, distinct, fun name set => by cases unset.symm.trans set⟩
  | loadedFor _ read set found =>
    rintro ports ⟨rfl⟩
    have distinct := Ports.nodup_ofBytes? read
    obtain ⟨known, rfl⟩ := Ports.select?_eq_some_iff.mp found
    refine ⟨rfl, distinct, fun name same => ?_⟩
    obtain rfl := Option.some.inj (set.symm.trans same)
    exact ⟨rfl, known⟩
  | chosen absent =>
    intro ports present
    cases absent.symm.trans present
  | selected present found =>
    rintro ports ⟨rfl⟩
    obtain ⟨mask, distinct, -⟩ := consistent _ present
    obtain ⟨known, rfl⟩ := Ports.select?_eq_some_iff.mp found
    refine ⟨mask, distinct, ?_⟩
    rintro name ⟨rfl⟩
    exact ⟨rfl, known⟩
  | unreadable _ | notText _ _ | notLoaded _ _ _ _ | notSelected _ _ => exact consistent

def afterCalls (config : Config) (calls : List Call) : Processor :=
  calls.foldl Call.after { config }

theorem consistent_afterCalls (config : Config) (calls : List Call) :
    (afterCalls config calls).Consistent := by
  refine List.foldlRecOn (motive := Consistent) calls Call.after ?_ fun _ consistent call _ =>
    consistent.after call
  -- Nothing is loaded at first.
  rintro ports ⟨⟩

end Processor

/-- After any calls, port names that are loaded compare the address bits of the
mode, and have the one device selected that the settings name, if they name one.
A call that fails changes nothing. -/
theorem loaded_ports_match_settings (config : Config) (calls : List Processor.Call) :
    let processor := Processor.afterCalls config calls
    (∀ ports, processor.ports = some ports →
      ports.mask = processor.mode.addressMask ∧
      ∀ name, processor.config.device = some name →
        ∃ device ∈ ports.devices, ports.activeDevice? = some device ∧
          ∀ other ∈ ports.devices, other.name = name ↔ other = device) ∧
    ∀ (call : Processor.Call) (error : SymbolError) (changed : Processor),
      call.perform.run processor = .error error changed → changed = processor := by
  intro processor
  constructor
  · intro ports loaded
    have fit := Processor.consistent_afterCalls config calls ports loaded
    refine ⟨fit.mask, fun name set => ?_⟩
    obtain ⟨active, known⟩ := fit.device name set
    exact Ports.exists_activeDevice? fit.distinct known active
  · intro call error changed failed
    have step := Processor.performs call processor
    rw [failed] at step
    cases step <;> rfl

/-- A device that is not in the port file, and a port file that is gone. -/
theorem loaded_ports_match_settings_failures :
    let calls : List Processor.Call := [.reload (.ok [0x2E, 0x41, 0x0A, 0x2E, 0x42]),
      .selectDevice "B", .setMode ⟨.h8300h, .normal⟩, .selectDevice "C"]
    let processor := Processor.afterCalls { portFile := some "h8.cfg" } calls
    (∃ ports, processor.ports = some ports ∧ ports.mask = 0xFFFF ∧
      ∃ device, ports.activeDevice? = some device ∧ device.name = "B") ∧
    ∃ changed, (Processor.Change.reload (.error .notFound)).run processor =
      .error (.file .notFound) changed ∧ changed = processor := by
  intro calls processor
  have facts : processor.ports.isSome ∧ processor.mode.addressMask = 0xFFFF ∧
      processor.config.device = some "B" ∧ processor.config.portFile = some "h8.cfg" := by
    decide +kernel
  obtain ⟨loaded, bits, device, file⟩ := facts
  obtain ⟨goes, keeps⟩ := loaded_ports_match_settings { portFile := some "h8.cfg" } calls
  obtain ⟨ports, present⟩ := Option.isSome_iff_exists.mp loaded
  obtain ⟨mask, active⟩ := goes ports present
  obtain ⟨device, member, found, alone⟩ := active "B" device
  obtain ⟨changed, fails⟩ : ∃ changed, (Processor.Change.reload (.error .notFound)).run processor =
      .error (.file .notFound) changed := by
    simp only [Processor.Change.reload, EStateM.run_bind, EStateM.run_get, file]
    exact ⟨_, rfl⟩
  exact ⟨⟨ports, present, mask.trans bits, device, found, (alone device member).mpr rfl⟩,
    changed, fails, keeps (.reload (.error .notFound)) _ _ fails⟩

end H8
