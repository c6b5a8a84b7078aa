import HackMachine.Proofs.Program.Resolution
import HackMachine.Proofs.Program.Violations

/-! # Label names are only names

A renaming gives each label another one and keeps different labels different.  The walks compare names
with each other and with nothing else, so renaming goes through each of them: the verdict on renamed
items is the renamed verdict (`validate_item`), their table is the renamed table (`index_item`), and
their opcodes differ in the names that they show or wait for (`drafts_item`, `directOpcodes_item`).
-/

namespace HackMachine

/-- A label is not empty. -/
abbrev Label := {name : Bytes // name ≠ []}

/-- Another name for each label, and not the same one for two. -/
structure Renaming where
  label : Label → Label
  injective : Function.Injective label

namespace Renaming

variable (r : Renaming)

-- The empty text is no label and stays as it is, so that the whole map is injective.
def name (text : Bytes) : Bytes := if labelled : text ≠ [] then r.label ⟨text, labelled⟩ else []

theorem name_injective : Function.Injective r.name := by
  intro text other same
  unfold name at same
  by_cases labelled : text ≠ []
  · by_cases labelled' : other ≠ []
    · rw [dif_pos labelled, dif_pos labelled', Subtype.val_inj] at same
      exact congrArg Subtype.val (r.injective same)
    · rw [dif_pos labelled, dif_neg labelled'] at same
      exact absurd same (r.label _).property
  · by_cases labelled' : other ≠ []
    · rw [dif_neg labelled, dif_pos labelled'] at same
      exact absurd same.symm (r.label _).property
    · rw [not_not.mp labelled, not_not.mp labelled']

@[simp] theorem name_inj {text other : Bytes} : r.name text = r.name other ↔ text = other :=
  r.name_injective.eq_iff

@[simp] theorem beq_name (text other : Bytes) : (r.name text == r.name other) = (text == other) := by
  rw [Bool.eq_iff_iff, beq_iff_eq, beq_iff_eq, name_inj]

/-! ## Renamed programs -/

def target : Target → Target
  | .value value => .value value
  | .label label => .label (r.name label)

def statement : Statement → Statement
  | .label label pos => .label (r.name label) pos
  | .address target targetPos pos => .address (r.target target) targetPos pos
  | .compute c pos => .compute c pos

/-- Declarations and references get the new names; places and source lines stay. -/
def item (i : Item) : Item := { i with statement := r.statement i.statement }

def cause : Cause → Cause
  | .undefinedLabel label => .undefinedLabel (r.name label)
  | .duplicateLabel label => .duplicateLabel (r.name label)
  | .labelRange label => .labelRange (r.name label)
  | cause => cause

def diagnostic (d : Diagnostic) : Diagnostic := { d with cause := r.cause d.cause }

def symbols (table : Symbols) : Symbols := table.map fun entry => (r.name entry.1, entry.2)

def reference (ref : Reference) : Reference := { ref with label := r.name ref.label }

def walk (w : Walk) : Walk :=
  { w with declared := r.symbols w.declared, references := w.references.map r.reference }

/-- The same opcode under new names.  Only the text and the label waited for may change. -/
structure Renames (op op' : Opcode) : Prop where
  line : op'.line = op.line
  ip : op'.ip = op.ip
  word : op'.word = op.word
  link : op'.link = op.link.map r.name
  text : ∃ s : Statement, op.text = s.text ∧ op'.text = (r.statement s).text

@[simp] theorem isInstruction_statement (s : Statement) :
    (r.statement s).isInstruction = s.isInstruction := by
  cases s <;> rfl

@[simp] theorem declared?_item (i : Item) : (r.item i).declared? = i.declared?.map r.name := by
  obtain ⟨lineNo, line, statement⟩ := i
  cases statement <;> rfl

@[simp] theorem referenced?_item (i : Item) : (r.item i).referenced? = i.referenced?.map r.name := by
  obtain ⟨lineNo, line, statement⟩ := i
  cases statement with
  | label | compute => rfl
  | address target targetPos pos => cases target <;> rfl

theorem instructions_item (items : List Item) :
    instructions (items.map r.item) = (instructions items).map r.item := by
  rw [instructions, List.filter_map]
  simp only [Function.comp_def, item, isInstruction_statement]
  rfl

/-! ## Tables -/

theorem find?_symbols (table : Symbols) (text : Bytes) :
    (r.symbols table).find? (r.name text) = table.find? text := by
  induction table with
  | nil => rfl
  | cons entry rest ih =>
    obtain ⟨first, address⟩ := entry
    have lookups : (r.symbols ((first, address) :: rest)).find? (r.name text) =
        bif r.name text == r.name first then some address else (r.symbols rest).find? (r.name text) :=
      List.lookup_cons
    rw [lookups, beq_name, ih]
    exact List.lookup_cons.symm

theorem set_symbols (table : Symbols) (text : Bytes) (address : Int) :
    (r.symbols table).set (r.name text) address = r.symbols (table.set text address) := by
  have kept : ((fun entry : Bytes × Int => entry.1 != r.name text) ∘
      fun entry : Bytes × Int => (r.name entry.1, entry.2)) = fun entry => entry.1 != text := by
    funext entry
    simp only [Function.comp_apply, bne, beq_name]
  rw [Symbols.set, Symbols.set, symbols, symbols, List.filter_map, kept, List.map_cons]

theorem contains_map (known : List Bytes) (text : Bytes) :
    (known.map r.name).contains (r.name text) = known.contains text := by
  rw [Bool.eq_iff_iff, List.contains_iff_mem, List.contains_iff_mem,
    List.mem_map_of_injective r.name_injective]

theorem indexStep_item (state : Symbols × Nat) (i : Item) :
    indexStep (r.symbols state.1, state.2) (r.item i) =
      (r.symbols (indexStep state i).1, (indexStep state i).2) := by
  obtain ⟨lineNo, line, statement⟩ := i
  cases statement with
  | label label pos => simp only [item, statement, indexStep, set_symbols]
  | address | compute => rfl

theorem index_item (items : List Item) : index (items.map r.item) = r.symbols (index items) := by
  -- The walk starts from an empty table, but its steps are compared from any.
  have walked : ∀ (items : List Item) (state : Symbols × Nat),
      (items.map r.item).foldl indexStep (r.symbols state.1, state.2) =
        (r.symbols (items.foldl indexStep state).1, (items.foldl indexStep state).2) := by
    intro items
    induction items with
    | nil => exact fun _ => rfl
    | cons i rest ih =>
      intro state
      rw [List.map_cons, List.foldl_cons, List.foldl_cons, indexStep_item]
      exact ih (indexStep state i)
  exact congrArg Prod.fst (walked items ([], 0))

/-! ## Validation -/

-- The faults of a computation are about registers.
theorem cause_of_computationFault? {c : Computation} {pos : Pos} {cause : Cause}
    (found : computationFault? c = some (pos, cause)) : r.cause cause = cause := by
  obtain ⟨d, -, -, rfl⟩ | ⟨-, operands, -⟩ := computationFault?_eq_some_iff.mp found
  · rfl
  · obtain ⟨_, _, _, _, _, _, _, rfl⟩ | ⟨_, _, _, rfl⟩ := operandFault?_eq_some_iff.mp operands
    · rfl
    · rfl

theorem step_item (w : Walk) (i : Item) :
    (r.walk w).step (r.item i) = recast r.diagnostic r.walk (w.step i) := by
  obtain ⟨lineNo, line, statement⟩ := i
  cases statement with
  | label label pos =>
    simp only [item, statement, Walk.step, walk, find?_symbols]
    split <;> rfl
  | address target targetPos pos =>
    cases target with
    | label label => rfl
    | value value =>
      simp only [item, statement, target, Walk.step]
      split <;> rfl
  | compute c pos =>
    simp only [item, statement, Walk.step]
    cases found : computationFault? c with
    | none => rfl
    | some fault =>
      obtain ⟨place, cause⟩ := fault
      simp only [recast_error, diagnostic, r.cause_of_computationFault? found]

theorem check_reference (declared : Symbols) (ref : Reference) :
    (r.reference ref).check (r.symbols declared) = recast r.diagnostic id (ref.check declared) := by
  unfold Reference.check
  simp only [reference, find?_symbols]
  cases declared.find? ref.label with
  | none => rfl
  | some address =>
    dsimp only
    split <;> rfl

/-- The verdict on renamed items is the renamed verdict. -/
theorem validate_item (items : List Item) :
    validate (items.map r.item) = recast r.diagnostic id (validate items) := by
  refine recast_bind (recast_foldlM r.step_item items {}) fun w _ => ?_
  have listed : (r.walk w).references.reverse = w.references.reverse.map r.reference :=
    (List.map_reverse).symm
  rw [listed]
  exact recast_forM (r.check_reference w.declared) w.references.reverse

theorem validate_item_eq_ok_iff (items : List Item) :
    validate (items.map r.item) = .ok () ↔ validate items = .ok () := by
  rw [validate_item, recast_eq_ok_iff]
  constructor
  · intro accepted
    obtain ⟨⟨⟩, accepted, -⟩ := accepted
    exact accepted
  · intro accepted
    exact ⟨(), accepted, rfl⟩

/-! ## Opcodes -/

@[simp] theorem directWord_statement (table : Symbols) (s : Statement) :
    directWord (r.symbols table) (r.statement s) = directWord table s := by
  cases s with
  | label | compute => rfl
  | address target targetPos pos =>
    cases target with
    | value value => rfl
    | label label => simp only [statement, target, directWord, find?_symbols]

theorem renames_directOpcode (table : Symbols) (i : Item) (ip : Nat) :
    r.Renames (directOpcode table i ip) (directOpcode (r.symbols table) (r.item i) ip) where
  line := rfl
  ip := rfl
  word := r.directWord_statement table i.statement
  link := rfl
  text := ⟨i.statement, rfl, rfl⟩

theorem renames_draft (table : Symbols) (known : List Bytes) (i : Item) (ip : Nat) :
    r.Renames (draft table known i ip)
      (draft (r.symbols table) (known.map r.name) (r.item i) ip) := by
  have direct := r.renames_directOpcode table i ip
  unfold draft
  rw [referenced?_item]
  cases i.referenced? with
  | none => exact direct
  | some label =>
    simp only [Option.map_some, contains_map]
    split
    · exact direct
    · -- A placeholder has no word yet, only the name of its label.
      exact { direct with word := rfl, link := rfl }

theorem drafts_item (table : Symbols) (known : List Bytes) (ip : Nat) (items : List Item) :
    List.Forall₂ r.Renames (drafts table known ip items)
      (drafts (r.symbols table) (known.map r.name) ip (items.map r.item)) := by
  induction items generalizing known ip with
  | nil => exact .nil
  | cons i rest ih =>
    rw [List.map_cons, drafts, drafts, declared?_item]
    cases i.declared? with
    | some label => exact ih (label :: known) ip
    | none => exact .cons (r.renames_draft table known i ip) (ih known (ip + 1))

theorem directOpcodes_item (table : Symbols) (items : List Item) :
    List.Forall₂ r.Renames (directOpcodes table items)
      (directOpcodes (r.symbols table) (items.map r.item)) := by
  rw [directOpcodes, directOpcodes, instructions_item, List.zipIdx_map, List.map_map,
    List.forall₂_map_left_iff, List.forall₂_map_right_iff, List.forall₂_same]
  intro numbered _
  exact r.renames_directOpcode table numbered.1 numbered.2

end Renaming

/-- What the passes make of items and of the same items under new names. -/
structure SamePasses (r : Renaming) (items : List Item) (emitted emitted' linked linked' : List Opcode) :
    Prop where
  symbols : index (items.map r.item) = r.symbols (index items)
  emits : emit items (index items) = .ok emitted
  emits' : emit (items.map r.item) (index (items.map r.item)) = .ok emitted'
  links : link emitted (index items) = .ok linked
  links' : link emitted' (index (items.map r.item)) = .ok linked'
  /-- Placeholders stand at the same indices and wait for the renamed labels. -/
  placeholders : List.Forall₂ r.Renames emitted emitted'
  opcodes : List.Forall₂ r.Renames linked linked'

/-- Renamed items are accepted together with the original ones.  If they are refused, it is with the same
report about the renamed label; if they are accepted, the passes give the same program under new names. -/
theorem renaming_keeps_program (r : Renaming) (items : List Item) :
    (validate (items.map r.item) = .ok () ↔ validate items = .ok ()) ∧
    (∀ d, validate items = .error d → validate (items.map r.item) = .error (r.diagnostic d)) ∧
    (validate items = .ok () →
      ∃ emitted emitted' linked linked', SamePasses r items emitted emitted' linked linked') := by
  refine ⟨r.validate_item_eq_ok_iff items, fun d failed => ?_, fun accepted => ?_⟩
  · rw [r.validate_item, failed, recast_error]
  · have valid : Valid items := validate_eq_ok_iff.mp accepted
    have valid' : Valid (items.map r.item) :=
      validate_eq_ok_iff.mp ((r.validate_item_eq_ok_iff items).mpr accepted)
    have encodes : ∀ i ∈ items, i.Encodes (index items) := fun _ member => valid.encodes member
    have encodes' : ∀ i ∈ items.map r.item, i.Encodes (index (items.map r.item)) :=
      fun _ member => valid'.encodes member
    refine ⟨_, _, _, _, ⟨r.index_item items, emit_eq_drafts encodes, emit_eq_drafts encodes',
      link_drafts encodes, link_drafts encodes', ?_, ?_⟩⟩
    · rw [r.index_item]
      exact r.drafts_item (index items) [] 0 items
    · rw [r.index_item]
      exact r.directOpcodes_item (index items) items

/-- Every label with the same byte before it. -/
def Renaming.behind (b : UInt8) : Renaming where
  label label := ⟨b :: label.1, List.cons_ne_nil b label.1⟩
  injective _ _ same := Subtype.ext (List.cons.inj (congrArg Subtype.val same)).2

theorem renaming_keeps_program_underscored :
    (∃ emitted emitted' linked linked', SamePasses (.behind (byte '_'))
      [⟨1, ascii "top:", .label (ascii "top") ⟨1, 1, 5⟩⟩,
        ⟨2, ascii "A := @end", .address (.label (ascii "end")) ⟨2, 6, 10⟩ ⟨2, 1, 10⟩⟩,
        ⟨3, ascii "A := @top", .address (.label (ascii "top")) ⟨3, 6, 10⟩ ⟨3, 1, 10⟩⟩,
        ⟨4, ascii "end:", .label (ascii "end") ⟨4, 1, 5⟩⟩] emitted emitted' linked linked') ∧
    validate [⟨1, ascii "A := @end", .address (.label (ascii "_end")) ⟨1, 6, 10⟩ ⟨1, 1, 10⟩⟩] =
      .error ⟨⟨1, 6, 10⟩, ascii "A := @end", .undefinedLabel (ascii "_end")⟩ := by
  constructor
  · exact (renaming_keeps_program (.behind (byte '_')) _).2.2 (by decide +kernel)
  · have failed : validate [⟨1, ascii "A := @end", .address (.label (ascii "end")) ⟨1, 6, 10⟩ ⟨1, 1, 10⟩⟩] =
        .error ⟨⟨1, 6, 10⟩, ascii "A := @end", .undefinedLabel (ascii "end")⟩ := by decide +kernel
    exact (renaming_keeps_program (.behind (byte '_')) _).2.1 _ failed

end HackMachine
