import H8.Proofs.Frame.Targets
import H8.Proofs.Frame.Tracking

/-! A frame leaves no gaps.

The regions of a frame lie below one another from the return address down to
the stack pointer, and each offset between is in one of them. Offsets are kept
in 32 bits; as long as the prologue makes no more room than half of that range,
none of them wraps around.
-/

set_option autoImplicit false

namespace H8

/-- Regions from an offset downwards: each ends where the one before it starts,
and the last one starts at the lower offset. -/
def Stacked : Int → List Region → Int → Prop
  | top, [], bottom => top = bottom
  | top, region :: rest, bottom =>
    region.offset + region.size = top ∧ Stacked region.offset rest bottom

def room (regions : List Region) : Nat := (regions.map Region.size).sum

@[simp] theorem room_nil : room [] = 0 := rfl

@[simp] theorem room_cons (region : Region) (rest : List Region) :
    room (region :: rest) = region.size + room rest := rfl

@[simp] theorem room_append (regions more : List Region) :
    room (regions ++ more) = room regions + room more := by
  simp [room]

namespace Stacked
variable {top bottom offset : Int} {regions : List Region} {region : Region}

theorem concat (stacked : Stacked top regions bottom) (ends : region.offset + region.size = bottom) :
    Stacked top (regions ++ [region]) region.offset := by
  induction regions generalizing top with
  | nil =>
    cases stacked
    exact ⟨ends, rfl⟩
  | cons first rest ih => exact ⟨stacked.1, ih stacked.2⟩

theorem add_room (stacked : Stacked top regions bottom) : bottom + room regions = top := by
  induction regions generalizing top with
  | nil =>
    cases stacked
    simp
  | cons first rest ih =>
    have below := ih stacked.2
    have ends := stacked.1
    rw [room_cons]
    omega

theorem bounds (stacked : Stacked top regions bottom) (member : region ∈ regions) :
    bottom ≤ region.offset ∧ region.offset + region.size ≤ top := by
  induction regions generalizing top with
  | nil => cases member
  | cons first rest ih =>
    have ends := stacked.1
    rcases List.mem_cons.mp member with rfl | later
    · have below := stacked.2.add_room
      omega
    · have inside := ih stacked.2 later
      omega

end Stacked

theorem Region.contains_iff {region : Region} {offset : Int} :
    region.contains offset = true ↔ region.offset ≤ offset ∧ offset < region.offset + region.size := by
  simp [contains]

namespace Stacked
variable {top bottom offset : Int} {regions : List Region}

theorem filter_contains_eq_nil (stacked : Stacked top regions bottom)
    (outside : offset < bottom ∨ top ≤ offset) :
    regions.filter (fun region => region.contains offset) = [] := by
  apply List.filter_eq_nil_iff.mpr
  intro region member contains
  have bounds := stacked.bounds member
  rw [Region.contains_iff] at contains
  omega

/-- Exactly one region contains an offset between the two ends. -/
theorem exists_filter_contains (stacked : Stacked top regions bottom) (low : bottom ≤ offset)
    (high : offset < top) :
    ∃ region, regions.filter (fun region => region.contains offset) = [region] := by
  induction regions generalizing top with
  | nil =>
    cases stacked
    omega
  | cons first rest ih =>
    obtain ⟨ends, below⟩ := stacked
    by_cases here : first.offset ≤ offset
    · have contains : first.contains offset = true := Region.contains_iff.mpr ⟨here, by omega⟩
      refine ⟨first, ?_⟩
      simp only [List.filter_cons, contains, if_true, below.filter_contains_eq_nil (.inr here)]
    · have lacks : first.contains offset = false := by
        rw [Bool.eq_false_iff, ne_eq, Region.contains_iff]
        omega
      simp only [List.filter_cons, lacks, Bool.false_eq_true, if_false]
      exact ih below (by omega)

end Stacked

theorem wrap32_eq_self {value : Int} (low : -2 ^ 31 ≤ value) (high : value < 2 ^ 31) :
    wrap32 value = value :=
  Int.bmod_eq_of_le low high

namespace Frame

structure Laid (mode : Mode) (frame : Frame) : Prop where
  returnSize : frame.returnSize = mode.returnSize
  regions : ∃ made, frame.regions = ⟨0, mode.returnSize, .returnAddress⟩ :: made ∧
    (room made ≤ 2 ^ 31 → Stacked 0 made frame.stackOffset)

theorem laid_atEntry (mode : Mode) (entry : Address) : Laid mode (.atEntry mode entry) :=
  ⟨rfl, [], rfl, fun _ => rfl⟩

/-- A step of the prologue adds at most one region, below all others. -/
theorem Laid.extend {view : View} {mode : Mode} {frame : Frame} {step : PrologueStep} {next : Address}
    (laid : Laid mode frame)
    (found : prologueAt? view mode frame.entry frame.prologueEnd = some (step, next)) :
    Laid mode (frame.extend step next) := by
  obtain ⟨made, regions, stacked⟩ := laid.regions
  cases step with
  | setPointer register => exact ⟨laid.returnSize, made, regions, stacked⟩
  | reserve role delta =>
    obtain ⟨instruction, -, -, recognised, -⟩ := prologueAt?_eq_some found
    obtain ⟨-, -, -, negative⟩ := Instruction.prologueStep?_eq_reserve recognised
    refine ⟨laid.returnSize, made ++ [⟨wrap32 (frame.stackOffset + delta), delta.natAbs, role⟩], ?_,
      fun small => ?_⟩
    · change frame.regions ++ _ = _
      rw [regions]
      rfl
    · have size : (delta.natAbs : Int) = -delta := Int.ofNat_natAbs_of_nonpos negative.le
      rw [room_append, room_cons, room_nil] at small
      dsimp only at small
      have above := stacked (by omega)
      have level := above.add_room
      apply above.concat
      dsimp only
      rw [wrap32_eq_self (by omega) (by omega)]
      omega

theorem laid_of_buildFrame {view : View} {mode : Mode} {entry : Address} {frame : Frame}
    (built : buildFrame view mode entry = .ok frame) : Laid mode frame :=
  follow_keeps (Laid mode) (fun laid found => laid.extend found) (laid_atEntry mode entry)
    (follow_of_buildFrame built)

theorem classify_of_lt {frame : Frame} {offset : Int} (below : offset < frame.returnSize) :
    frame.classify offset =
      ((frame.regions.filter fun region => region.contains offset).head?.map Region.role).getD
        .localVariable := by
  rw [List.head?_filter, classify, if_neg (by omega)]
  cases frame.regions.find? fun region => region.contains offset <;> rfl

end Frame

/-- The regions of a frame lie below one another without gaps from the return
address down to the stack pointer, and what lies at an offset is the role of the
one region that contains it. Above them are the arguments; what lies below is
local. -/
theorem classify_reads_regions {view : View} {mode : Mode} {entry : Address} {frame : Frame}
    (built : buildFrame view mode entry = .ok frame)
    (small : (frame.regions.tail.map Region.size).sum ≤ 2 ^ 31) :
    frame.returnSize = mode.returnSize ∧
      (∃ made, frame.regions = ⟨0, frame.returnSize, .returnAddress⟩ :: made ∧
        Stacked 0 made frame.stackOffset ∧ frame.size = (made.map Region.size).sum) ∧
      ∀ offset : Int,
        (frame.returnSize ≤ offset → frame.classify offset = .argument) ∧
        (frame.stackOffset ≤ offset → offset < frame.returnSize →
          ∃ region, (frame.regions.filter fun region =>
              region.offset ≤ offset ∧ offset < region.offset + region.size) = [region] ∧
            frame.classify offset = region.role) ∧
        (offset < frame.stackOffset → frame.classify offset = .localVariable) := by
  obtain ⟨returnSize, made, regions, stacked⟩ := Frame.laid_of_buildFrame built
  rw [regions, List.tail_cons] at small
  have below := stacked small
  have level := below.add_room
  have whole : Stacked frame.returnSize frame.regions frame.stackOffset := by
    rw [regions, returnSize]
    exact ⟨Int.zero_add _, below⟩
  have same (offset : Int) : (frame.regions.filter fun region =>
        region.offset ≤ offset ∧ offset < region.offset + region.size) =
      frame.regions.filter fun region => region.contains offset := by
    apply List.filter_congr
    intro region _
    rw [Bool.eq_iff_iff, decide_eq_true_eq, Region.contains_iff]
  refine ⟨returnSize, ⟨made, by rw [regions, returnSize], below, ?_⟩,
    fun offset => ⟨fun above => ?_, fun low high => ?_, fun beneath => ?_⟩⟩
  · rw [Frame.size, ← room]
    omega
  · rw [Frame.classify, if_pos above]
  · obtain ⟨region, only⟩ := whole.exists_filter_contains low high
    refine ⟨region, (same offset).trans only, ?_⟩
    rw [Frame.classify_of_lt high, only]
    rfl
  · rw [Frame.classify_of_lt (by omega), whole.filter_contains_eq_nil (.inl beneath)]
    rfl

/-- Two reservations that together take all of the lower half of the range. -/
theorem classify_reads_regions_half :
    let view := (Database.ofMemory (.ofImage #[0x7A, 0x37, 0x40, 0x00, 0x00, 0x00, 0x7A, 0x37, 0x40,
      0x00, 0x00, 0x00, 0x54, 0x70] 0x100)).view
    let lowest : Int := -2 ^ 31
    let frame : Frame := ⟨0x100, 4, [⟨0, 4, .returnAddress⟩, ⟨-2 ^ 30, 2 ^ 30, .localVariable⟩,
      ⟨lowest, 2 ^ 30, .localVariable⟩], none, lowest, 0x10C⟩
    buildFrame view ⟨.h8300h, .advanced⟩ 0x100 = .ok frame ∧
      (frame.regions.tail.map Region.size).sum ≤ 2 ^ 31 ∧ frame.size = 2 ^ 31 ∧
      ∃ region, (frame.regions.filter fun region =>
          region.offset ≤ lowest ∧ lowest < region.offset + region.size) = [region] ∧
        frame.classify lowest = region.role := by
  intro view lowest frame
  have built : buildFrame view ⟨.h8300h, .advanced⟩ 0x100 = .ok frame := by decide +kernel
  have small : (frame.regions.tail.map Region.size).sum ≤ 2 ^ 31 := by decide
  obtain ⟨-, ⟨made, regions, -, size⟩, roles⟩ := classify_reads_regions built small
  rw [← List.tail_eq_of_cons_eq regions] at size
  exact ⟨built, small, size.trans (by decide), (roles lowest).2.1 (Int.le_refl lowest) (by decide)⟩

end H8
