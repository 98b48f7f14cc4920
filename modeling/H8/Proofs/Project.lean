import H8.Project
import H8.Proofs.Json.Format
import H8.Proofs.Json.Shape

/-! Project files are read back from the text that they are written as.

The programs that are read from a file stand in increasing order of their
names, and the sizes in them are below 2^32. A project of that form is written
and read without loss, whatever format its texts have, as long as it is
faithful to the JSON values.
-/

set_option autoImplicit false

namespace H8

open Assembly (Style)
open Json (Shape Within)

theorem Mode.ofName?_savedName (mode : Mode) : Mode.ofName? mode.savedName = some mode := by
  obtain ⟨core, space⟩ := mode
  cases core <;> cases space <;> decide +kernel

theorem Assembly.Style.ofName?_savedName (style : Style) : Style.ofName? style.savedName = some style := by
  cases style <;> decide +kernel

namespace Program

/-- What a program is like that a project file holds: it has no name of its own,
and the size of an enumeration, if it is given, can be read. -/
structure Saved (program : Program) : Prop where
  nameless : program.name = none
  fits : ∀ size ∈ program.enumSize, size < UInt32.size

theorem field_yields {draft : Draft} (saved : draft.program.Saved) (name : String) :
    (field draft name).Yields fun next => next.program.Saved := by
  unfold field
  -- The size is the last of the known fields; all others leave it as it is.
  iterate 7
    split
    · exact Shape.map_yields fun _ => ⟨saved.nameless, saved.fits⟩
  split
  · exact Shape.nullable_natural32_yields.map fun _ fits => ⟨saved.nameless, fits⟩
  · exact Shape.map_yields fun _ => saved

theorem shape_yields : shape.Yields Saved := by
  intro json program made
  obtain ⟨draft, made, complete⟩ := Option.bind_eq_some_iff.mp made
  have saved := Shape.record_yields (fun _ name saved => field_yields saved name) ⟨rfl, by simp⟩ made
  obtain ⟨images, -, rfl⟩ := Option.map_eq_some_iff.mp complete
  exact ⟨saved.nameless, saved.fits⟩

theorem ofJson?_toJson {program : Program} (saved : program.Saved) :
    shape.ofJson? program.toJson = some program := by
  have read : (Shape.record fieldNames field {}).ofJson? program.toJson =
      some ⟨{ program with images := [], name := none }, some program.images⟩ := by
    refine Shape.ofJson?_record_object (by decide : (fieldNames.filter fieldNames.contains).Nodup) ?_
    -- Each field is read into the draft that the fields in front of it have left.
    apply Shape.foldlM_cons_eq_some
    · simp only [field, String.reduceEq, reduceIte]
      rw [Shape.ofJson?_map, Shape.ofJson?_ofOption (by simp) fun mode _ => mode.ofName?_savedName, Option.map_some]
    apply Shape.foldlM_cons_eq_some
    · simp only [field, String.reduceEq, reduceIte]
      rw [Shape.ofJson?_map, Shape.ofJson?_ofOption (by simp) fun style _ => style.ofName?_savedName,
        Option.map_some]
    apply Shape.foldlM_cons_eq_some
    · simp only [field, String.reduceEq, reduceIte]
      rw [Shape.ofJson?_map, Shape.ofJson?_texts, Option.map_some]
    apply Shape.foldlM_cons_eq_some
    · simp only [field, String.reduceEq, reduceIte]
      rw [Shape.ofJson?_map, Shape.ofJson?_ofOption (by simp) fun address _ => Shape.ofJson?_word32 address,
        Option.map_some]
    apply Shape.foldlM_cons_eq_some
    · simp only [field, String.reduceEq, reduceIte]
      rw [Shape.ofJson?_map, Shape.ofJson?_text?, Option.map_some]
    apply Shape.foldlM_cons_eq_some
    · simp only [field, String.reduceEq, reduceIte]
      rw [Shape.ofJson?_map, Shape.ofJson?_text?, Option.map_some]
    apply Shape.foldlM_cons_eq_some
    · simp only [field, String.reduceEq, reduceIte]
      rw [Shape.ofJson?_map, Shape.ofJson?_texts, Option.map_some]
    apply Shape.foldlM_cons_eq_some
    · simp only [field, String.reduceEq, reduceIte]
      rw [Shape.ofJson?_map, Shape.ofJson?_ofOption (by simp) fun size given =>
        Shape.ofJson?_natural32 (saved.fits size given), Option.map_some]
    rfl
  refine Option.bind_eq_some_iff.mpr ⟨_, read, ?_⟩
  simp only [Draft.complete?, Option.map_some, ← saved.nameless]

theorem within_toJson (program : Program) : Within 2 program.toJson := by
  apply Within.object
  simp only [List.forall_mem_cons, List.not_mem_nil, IsEmpty.forall_iff, implies_true, and_true]
  refine ⟨.ofOption (fun _ => .text _ _) _, .ofOption (fun _ => .text _ _) _, .texts _,
    .ofOption (fun _ => .number _ _) _, .ofOption (fun _ => .text _ _) _, .ofOption (fun _ => .text _ _) _,
    .texts _, .ofOption (fun _ => .number _ _) _⟩

end Program

namespace Project

structure Saved (programs : List (String × Program)) : Prop where
  sorted : programs.Pairwise fun first second => first.1 < second.1
  each : ∀ entry ∈ programs, entry.2.Saved

section Insertion

variable {name : String} {program : Program} {programs : List (String × Program)}

theorem mem_insertProgram {entry : String × Program}
    (member : entry ∈ insertProgram name program programs) : entry = (name, program) ∨ entry ∈ programs := by
  fun_induction insertProgram name program programs <;> grind

theorem sorted_insertProgram (sorted : programs.Pairwise fun first second => first.1 < second.1) :
    (insertProgram name program programs).Pairwise fun first second => first.1 < second.1 := by
  fun_induction insertProgram name program programs with
  | case1 => exact List.pairwise_singleton _ _
  | case2 first rest before =>
    refine List.pairwise_cons.mpr ⟨fun entry member => ?_, sorted⟩
    rcases List.mem_cons.mp member with rfl | later
    · exact before
    · exact String.lt_trans before (List.rel_of_pairwise_cons sorted later)
  | case3 first rest _ same =>
    refine List.pairwise_cons.mpr ⟨fun entry later => ?_, sorted.of_cons⟩
    exact same ▸ List.rel_of_pairwise_cons sorted later
  | case4 first rest notBefore differs ih =>
    have after : first.1 < name :=
      String.not_le.mp fun above => differs (String.le_antisymm above (String.not_lt.mp notBefore))
    refine List.pairwise_cons.mpr ⟨fun entry member => ?_, ih sorted.of_cons⟩
    rcases mem_insertProgram member with rfl | later
    · exact after
    · exact List.rel_of_pairwise_cons sorted later

theorem saved_insertProgram (saved : Saved programs) (one : program.Saved) :
    Saved (insertProgram name program programs) where
  sorted := sorted_insertProgram saved.sorted
  each entry member := by
    rcases mem_insertProgram member with rfl | old
    · exact one
    · exact saved.each entry old

theorem insertProgram_of_lt (behind : ∀ entry ∈ programs, entry.1 < name) :
    insertProgram name program programs = programs ++ [(name, program)] := by
  induction programs with
  | nil => rfl
  | cons first rest ih =>
    rw [List.forall_mem_cons] at behind
    have notBefore : ¬ name < first.1 := String.lt_asymm behind.1
    have differs : name ≠ first.1 := fun same => String.lt_irrefl _ (same ▸ behind.1)
    rw [insertProgram, if_neg notBefore, if_neg differs, ih behind.2]
    rfl

end Insertion

/-! ### Reading yields saved programs -/

theorem programsShape_yields : programsShape.Yields Saved := by
  refine Shape.object_yields (fun programs name saved => ?_) ⟨.nil, by simp⟩
  exact Program.shape_yields.map fun program one => saved_insertProgram saved one

theorem field_yields {programs? : Option (List (String × Program))}
    (saved : ∀ programs ∈ programs?, Saved programs) (name : String) :
    (field programs? name).Yields fun next => ∀ programs ∈ next, Saved programs := by
  unfold field
  split
  · exact programsShape_yields.map fun programs saved => by simpa using saved
  · exact Shape.map_yields fun _ => saved

theorem exists_of_ofJson? {json : Json} {project : Project} (made : shape.ofJson? json = some project) :
    ∃ programs, Saved programs ∧ project = { programs } := by
  obtain ⟨programs?, made, complete⟩ := Option.bind_eq_some_iff.mp made
  have saved := Shape.record_yields (fun _ name saved => field_yields saved name) (by simp) made
  obtain ⟨programs, rfl, rfl⟩ := Option.map_eq_some_iff.mp complete
  exact ⟨programs, saved programs rfl, rfl⟩

/-! ### Saved programs are read back -/

theorem foldlM_programs (before : List (String × Program)) {after : List (String × Program)}
    (saved : Saved (before ++ after)) :
    (after.map fun (name, program) => (name, program.toJson)).foldlM
      (fun programs entry => (Shape.map (insertProgram entry.1 · programs) Program.shape).ofJson? entry.2)
      before = some (before ++ after) := by
  induction after generalizing before with
  | nil => simp
  | cons entry after ih =>
    obtain ⟨name, program⟩ := entry
    have behind : ∀ entry ∈ before, entry.1 < name := fun entry member =>
      (List.pairwise_append.mp saved.sorted).2.2 entry member (name, program) List.mem_cons_self
    have made := Program.ofJson?_toJson (saved.each (name, program) (by simp))
    -- The names come in order, so that each program goes behind those read before it.
    rw [List.append_cons] at saved ⊢
    rw [List.map_cons, List.foldlM_cons, Shape.ofJson?_map, made, Option.map_some, insertProgram_of_lt behind]
    exact ih _ saved

theorem ofJson?_toJson {programs : List (String × Program)} (saved : Saved programs) :
    shape.ofJson? (toJson { programs }) = some { programs } := by
  have made : programsShape.ofJson?
      (.object (programs.map fun (name, program) => (name, program.toJson))) = some programs :=
    foldlM_programs [] saved
  have read : (Shape.record ["programs"] field none).ofJson? (toJson { programs }) = some (some programs) := by
    refine Shape.ofJson?_record_object (by decide : (["programs"].filter ["programs"].contains).Nodup) ?_
    apply Shape.foldlM_cons_eq_some
    · simp only [field, reduceIte]
      rw [Shape.ofJson?_map, made, Option.map_some]
    rfl
  exact Option.bind_eq_some_iff.mpr ⟨_, read, rfl⟩

theorem toJson_withNames (project : Project) : project.withNames.toJson = project.toJson := by
  simp [toJson, withNames, Program.toJson]

theorem within_toJson (project : Project) : Within 4 project.toJson := by
  apply Within.object
  rw [List.forall_mem_singleton]
  exact .object (List.forall_mem_map.mpr fun entry _ => entry.2.within_toJson)

theorem exists_of_read {format : Json.Format} {bytes : Json.Bytes} {project : Project}
    (accepted : read format bytes = .ok project) :
    ∃ plain, format.read shape bytes = .ok plain ∧ project = plain.withNames := by
  unfold read at accepted
  cases found : format.read shape bytes with
  | error cause =>
    rw [found] at accepted
    cases accepted
  | ok plain =>
    rw [found] at accepted
    cases accepted
    exact ⟨plain, rfl, rfl⟩

/-- With any faithful format, a project that was read from a text is read back
from the text that it is written as. -/
theorem read_write_toJson {format : Json.Format} (faithful : format.Faithful) {bytes : Json.Bytes}
    {project : Project} (accepted : read format bytes = .ok project) :
    read format (format.write project.toJson) = .ok project := by
  obtain ⟨plain, found, rfl⟩ := exists_of_read accepted
  obtain ⟨json, made⟩ := faithful.made_of_read found
  obtain ⟨programs, saved, rfl⟩ := exists_of_ofJson? made
  have shallow : Within Json.nestingLimit (toJson { programs }) := (within_toJson _).mono (by decide)
  rw [toJson_withNames, read, faithful.read_write shallow (ofJson?_toJson saved)]
  rfl

/-- The standard format, on a project and a program in the form of arrays. -/
theorem read_write_toJson_arrays :
    ∃ project, parse (Text.bytes ("[\x7b\"b\":\x7b\"images\":[],\"notes\":[1]\x7d," ++
        "\"a\":[\"h8SA\",null,[\"\\u00e9\"],null,null,null,[],4]\x7d]")) = .ok project ∧
      project.programs = [
        ("a", { mode := some ⟨.h8s, .advanced⟩, images := ["é"], name := some "a", enumSize := some 4 }),
        ("b", { name := some "b" })] ∧
      parse project.toJson.encode = .ok project := by
  refine ⟨{
    programs := [
      ("a", { mode := some ⟨.h8s, .advanced⟩, images := ["é"], name := some "a", enumSize := some 4 }),
      ("b", { name := some "b" })] }, ?_⟩
  refine (and_iff_left_of_imp fun accepted =>
    ⟨rfl, read_write_toJson Json.Format.standard_faithful accepted⟩).mpr ?_
  with_unfolding_all rfl

end Project

end H8
