import HackMachine.Proofs.Program.Resolution
import HackMachine.Proofs.Program.Violations
import HackMachine.Proofs.Source.Relocation

/-! # Programs at other places

Validation and the label passes look at statements, never at where they stand.  So the verdict on moved
items is the moved verdict (`Relocation.validate_item`), and their opcodes differ in their line numbers
only (`Relocation.directOpcodes_item`).
-/

namespace HackMachine

namespace Relocation

variable (r : Relocation)

def reference (ref : Reference) : Reference := ⟨ref.label, r.place ref.pos, r.line ref.line⟩

def walk (w : Walk) : Walk := { w with references := w.references.map r.reference }

def opcode (op : Opcode) : Opcode := { op with line := r.number op.line.toNat }

/-! ## What stays the same -/

@[simp] theorem registers_computation (c : Computation) : (r.computation c).registers = c.registers := by
  simp [computation, Computation.registers, destination]

@[simp] theorem text_statement (s : Statement) : (r.statement s).text = s.text := by
  cases s with
  | label => rfl
  | address target targetPos pos => cases target <;> rfl
  | compute c pos =>
    simp only [statement, Statement.text, registers_computation]
    rfl

@[simp] theorem isInstruction_statement (s : Statement) :
    (r.statement s).isInstruction = s.isInstruction := by
  cases s <;> rfl

@[simp] theorem directWord_statement (symbols : Symbols) (s : Statement) :
    directWord symbols (r.statement s) = directWord symbols s := by
  cases s with
  | label => rfl
  | address target targetPos pos => cases target <;> rfl
  | compute c pos =>
    simp only [statement, directWord, registers_computation]
    rfl

@[simp] theorem declared?_item (i : Item) : (r.item i).declared? = i.declared? := by
  obtain ⟨lineNo, line, statement⟩ := i
  cases statement <;> rfl

@[simp] theorem referenced?_item (i : Item) : (r.item i).referenced? = i.referenced? := by
  obtain ⟨lineNo, line, statement⟩ := i
  cases statement with
  | label | compute => rfl
  | address target targetPos pos => cases target <;> rfl

@[simp] theorem reference?_item (i : Item) : (r.item i).reference? = i.reference?.map r.reference := by
  obtain ⟨lineNo, line, statement⟩ := i
  cases statement with
  | label | compute => rfl
  | address target targetPos pos => cases target <;> rfl

@[simp] theorem instructions_item (items : List Item) :
    instructions (items.map r.item) = (instructions items).map r.item := by
  rw [instructions, List.filter_map]
  simp only [Function.comp_def, item, isInstruction_statement]
  rfl

@[simp] theorem declaredNames_item (items : List Item) :
    declaredNames (items.map r.item) = declaredNames items := by
  simp [declaredNames, List.filterMap_map]

theorem index_item (items : List Item) : index (items.map r.item) = index items := by
  have step : ∀ state i, indexStep state (r.item i) = indexStep state i := by
    intro state i
    obtain ⟨lineNo, line, statement⟩ := i
    cases statement <;> rfl
  simp only [index, List.foldl_map, step]

/-! ## Validation -/

theorem repeatedDestination?_destination (seen : List Register) (destinations : List Destination) :
    repeatedDestination? seen (destinations.map r.destination) =
      (repeatedDestination? seen destinations).map r.destination := by
  induction destinations generalizing seen with
  | nil => rfl
  | cons d rest ih =>
    have register : (r.destination d).register = d.register := rfl
    simp only [List.map_cons, repeatedDestination?, register, ih]
    rw [apply_ite (Option.map r.destination)]
    rfl

theorem computationFault?_computation (c : Computation) :
    computationFault? (r.computation c) = (computationFault? c).map r.fault := by
  -- No fault of a computation quotes its line.
  have unquoted : ∀ cause, operandFault? c.expr = some cause → r.cause cause = cause := by
    intro cause found
    obtain ⟨_, _, _, _, _, _, _, rfl⟩ | ⟨_, _, _, rfl⟩ := operandFault?_eq_some_iff.mp found
    · rfl
    · rfl
  unfold computationFault?
  simp only [computation, repeatedDestination?_destination]
  cases repeatedDestination? [] c.destinations with
  | some d => rfl
  | none =>
    cases found : operandFault? c.expr with
    | none => rfl
    | some cause =>
      simp only [Option.map_none, Option.map_some, fault, unquoted cause found]

theorem check_reference (declared : Symbols) (ref : Reference) :
    (r.reference ref).check declared = recast r.diagnostic id (ref.check declared) := by
  unfold Reference.check
  simp only [reference]
  cases declared.find? ref.label with
  | none => rfl
  | some address =>
    dsimp only
    split <;> rfl

theorem step_item (w : Walk) (i : Item) :
    (r.walk w).step (r.item i) = recast r.diagnostic r.walk (w.step i) := by
  obtain ⟨lineNo, line, statement⟩ := i
  cases statement with
  | label name pos =>
    have declared : (r.walk w).declared = w.declared := rfl
    simp only [item, statement, Walk.step, declared]
    by_cases known : (w.declared.find? name).isSome = true
    · rw [if_pos known, if_pos known]
      rfl
    · rw [if_neg known, if_neg known]
      rfl
  | address target targetPos pos =>
    cases target with
    | label name => rfl
    | value value =>
      simp only [item, statement, Walk.step, walk, slice_line]
      split <;> rfl
  | compute c pos =>
    simp only [item, statement, Walk.step, computationFault?_computation]
    cases computationFault? c with
    | none => rfl
    | some fault => rfl

/-- The verdict on moved items is the moved verdict. -/
theorem validate_item (items : List Item) :
    validate (items.map r.item) = recast r.diagnostic id (validate items) := by
  refine recast_bind (recast_foldlM r.step_item items {}) fun walk _ => ?_
  have listed : (r.walk walk).references.reverse = walk.references.reverse.map r.reference :=
    (List.map_reverse).symm
  rw [listed]
  exact recast_forM (r.check_reference walk.declared) walk.references.reverse

theorem valid_item_iff {items : List Item} : Valid (items.map r.item) ↔ Valid items := by
  rw [← validate_eq_ok_iff, ← validate_eq_ok_iff, validate_item, recast_eq_ok_iff]
  exact ⟨fun ⟨⟨⟩, accepted, _⟩ => accepted, fun accepted => ⟨(), accepted, rfl⟩⟩

/-! ## Opcodes -/

theorem directOpcodes_item (symbols : Symbols) (items : List Item) :
    directOpcodes symbols (items.map r.item) = (directOpcodes symbols items).map r.opcode := by
  simp only [directOpcodes, instructions_item, List.zipIdx_map, List.map_map]
  refine List.map_congr_left fun numbered _ => ?_
  simp [directOpcode, opcode, item]

end Relocation

end HackMachine
