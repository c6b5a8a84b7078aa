import HackMachine.Instruction.Disassembly
import HackMachine.Proofs.Instruction.Fields
import Mathlib.Tactic.IntervalCases

/-! # Canonical words

A word is canonical when it loads `A`, or has all three marks of a compute word and computes an
expression of the catalog.  These are the words that `encodeCompute` and `encodeAddress` give
(`canonical_encodeCompute`), and a compute word of the catalog is packed again from its own fields
with its marks set (`encodeCompute_fields`).
-/

namespace HackMachine

/-- The signs of a jump are those it was made from. -/
theorem Jump.on_ofSigns (negative zero positive : Bool) :
    (Jump.ofSigns negative zero positive).onNegative = negative ∧
      (Jump.ofSigns negative zero positive).onZero = zero ∧
      (Jump.ofSigns negative zero positive).onPositive = positive := by
  cases negative <;> cases zero <;> cases positive <;> exact ⟨rfl, rfl, rfl⟩

namespace Word

/-- The switches and the memory bit are those of a catalog expression. -/
def Listed (w : Word) : Prop := ∃ e ∈ Expr.catalog, e.operation = Word.operation w

/-- A compute word, if it is one, computes an expression of the catalog. -/
def Readable (w : Word) : Prop := w.getLsbD 15 = true → Word.Listed w

def Canonical (w : Word) : Prop :=
  w.getLsbD 15 = false ∨
    w.getLsbD 15 = true ∧ w.getLsbD 14 = true ∧ w.getLsbD 13 = true ∧ Word.Listed w

/-- The word with bits 14 and 13 set, if it is a compute word. -/
def marked (w : Word) : Word := if w.getLsbD 15 then w ||| (flag 14 true ||| flag 13 true) else w

instance (w : Word) : Decidable (Word.Listed w) :=
  inferInstanceAs (Decidable (∃ e ∈ Expr.catalog, e.operation = Word.operation w))

instance (w : Word) : Decidable (Word.Readable w) :=
  inferInstanceAs (Decidable (w.getLsbD 15 = true → Word.Listed w))

instance (w : Word) : Decidable (Word.Canonical w) :=
  inferInstanceAs (Decidable (w.getLsbD 15 = false ∨
    w.getLsbD 15 = true ∧ w.getLsbD 14 = true ∧ w.getLsbD 13 = true ∧ Word.Listed w))

theorem Canonical.readable {w : Word} (canonical : Canonical w) : Readable w := by
  intro compute
  rcases canonical with address | ⟨-, -, -, listed⟩
  · rw [compute] at address
    cases address
  · exact listed

theorem getLsbD_marked (w : Word) (i : Nat) :
    (marked w).getLsbD i = (w.getLsbD i || (w.getLsbD 15 && (decide (i = 14) || decide (i = 13)))) := by
  cases compute : w.getLsbD 15 with
  | false => rw [marked, compute, if_neg Bool.false_ne_true, Bool.false_and, Bool.or_false]
  | true =>
    rw [marked, compute, if_pos rfl, BitVec.getLsbD_or, BitVec.getLsbD_or, getLsbD_flag, getLsbD_flag]
    by_cases fourteen : i = 14
    · simp [fourteen]
    · by_cases thirteen : i = 13
      · simp [thirteen]
      · simp [fourteen, thirteen, eq_comm (b := i)]

/-- Setting the marks changes exactly the readable words that lack one. -/
theorem marked_eq_self_iff {w : Word} (readable : Readable w) : marked w = w ↔ Canonical w := by
  constructor
  · intro same
    cases compute : w.getLsbD 15 with
    | false => exact .inl compute
    | true =>
      have bit : ∀ i, (marked w).getLsbD i = w.getLsbD i := fun i => by rw [same]
      have fourteen := bit 14
      have thirteen := bit 13
      rw [getLsbD_marked, compute] at fourteen thirteen
      exact .inr ⟨compute, by simpa using fourteen.symm, by simpa using thirteen.symm, readable compute⟩
  · rintro (address | ⟨-, fourteen, thirteen, -⟩)
    · rw [marked, address, if_neg Bool.false_ne_true]
    · apply BitVec.eq_of_getLsbD_eq
      intro i _
      rw [getLsbD_marked]
      by_cases atFourteen : i = 14
      · simp [atFourteen, fourteen]
      · by_cases atThirteen : i = 13
        · simp [atThirteen, thirteen]
        · simp [atFourteen, atThirteen]

/-! ## Fields -/

/-- A word is known by its marks and its fields. -/
theorem eq_of_fields {v w : Word} (fifteen : v.getLsbD 15 = w.getLsbD 15)
    (fourteen : v.getLsbD 14 = w.getLsbD 14) (thirteen : v.getLsbD 13 = w.getLsbD 13)
    (operation : Word.operation v = Word.operation w) (a : writesA v = writesA w)
    (d : writesD v = writesD w) (m : writesM v = writesM w) (jump : Word.jump v = Word.jump w) :
    v = w := by
  have control : Word.control v = Word.control w := congrArg Operation.control operation
  have memory : readsMemory v = readsMemory w := congrArg Operation.memory operation
  have negative := congrArg Jump.onNegative jump
  have zero := congrArg Jump.onZero jump
  have positive := congrArg Jump.onPositive jump
  simp only [Word.jump, Jump.on_ofSigns] at negative zero positive
  injection control with zeroX negateX zeroY negateY add negateOut
  apply BitVec.eq_of_getLsbD_eq
  intro i bound
  -- Each bit belongs to one of the fields.
  interval_cases i
  all_goals assumption

theorem getLsbD_marked_of_ne (w : Word) {i : Nat} (fourteen : i ≠ 14) (thirteen : i ≠ 13) :
    (marked w).getLsbD i = w.getLsbD i := by
  simp [getLsbD_marked, fourteen, thirteen]

theorem operation_marked (w : Word) : Word.operation (marked w) = Word.operation w := by
  simp (disch := omega) only [Word.operation, Word.control, Control.ofBits, readsMemory,
    getLsbD_marked_of_ne]

theorem jump_marked (w : Word) : Word.jump (marked w) = Word.jump w := by
  simp (disch := omega) only [Word.jump, getLsbD_marked_of_ne]

theorem contains_targets (w : Word) :
    (targets w).contains .a = writesA w ∧ (targets w).contains .d = writesD w ∧
      (targets w).contains .m = writesM w := by
  unfold targets
  cases writesA w <;> cases writesD w <;> cases writesM w <;> exact ⟨rfl, rfl, rfl⟩

end Word

theorem Expr.ofOperation?_eq_some {op : Operation} {e : Expr} (found : Expr.ofOperation? op = some e) :
    e ∈ Expr.catalog ∧ e.operation = op :=
  ⟨List.mem_of_find?_eq_some found, by simpa using List.find?_some found⟩

theorem Expr.ofOperation?_eq_none_iff {op : Operation} :
    Expr.ofOperation? op = none ↔ ¬ ∃ e ∈ Expr.catalog, e.operation = op := by
  simp [Expr.ofOperation?]

theorem Expr.normalize_of_mem_catalog {e : Expr} (listed : e ∈ Expr.catalog) : e.normalize = e := by
  have each : ∀ e ∈ Expr.catalog, e.normalize = e := by decide
  exact each e listed

theorem operation_encodeCompute (targets : List Register) (e : Expr) (jump : Jump) :
    Word.operation (encodeCompute targets e jump) = e.normalize.operation := by
  simp [Word.operation, Expr.operation]

theorem marks_encodeCompute (targets : List Register) (e : Expr) (jump : Jump) :
    (encodeCompute targets e jump).getLsbD 14 = true ∧
      (encodeCompute targets e jump).getLsbD 13 = true := by
  simp [encodeCompute, encodeOperation, computeMark]

theorem canonical_encodeCompute {e : Expr} (listed : e.normalize ∈ Expr.catalog)
    (targets : List Register) (jump : Jump) : Word.Canonical (encodeCompute targets e jump) := by
  obtain ⟨fourteen, thirteen⟩ := marks_encodeCompute targets e jump
  refine .inr ⟨isCompute_encodeCompute targets e jump, fourteen, thirteen, e.normalize, listed, ?_⟩
  exact (operation_encodeCompute targets e jump).symm

/-- A compute word is packed again from its fields, and then has its marks. -/
theorem encodeCompute_fields {w : Word} (compute : w.getLsbD 15 = true) {e : Expr}
    (listed : e ∈ Expr.catalog) (operation : e.operation = Word.operation w) :
    encodeCompute (Word.targets w) e (Word.jump w) = Word.marked w := by
  obtain ⟨fourteen, thirteen⟩ := marks_encodeCompute (Word.targets w) e (Word.jump w)
  have marks : (Word.marked w).getLsbD 15 = true ∧ (Word.marked w).getLsbD 14 = true ∧
      (Word.marked w).getLsbD 13 = true := by simp [Word.getLsbD_marked, compute]
  have written := Word.contains_targets w
  apply Word.eq_of_fields
  · rw [marks.1]
    exact isCompute_encodeCompute _ _ _
  · rw [fourteen, marks.2.1]
  · rw [thirteen, marks.2.2]
  · rw [operation_encodeCompute, Expr.normalize_of_mem_catalog listed, operation, Word.operation_marked]
  · rw [writesA_encodeCompute, written.1]
    exact (Word.getLsbD_marked_of_ne w (by decide) (by decide)).symm
  · rw [writesD_encodeCompute, written.2.1]
    exact (Word.getLsbD_marked_of_ne w (by decide) (by decide)).symm
  · rw [writesM_encodeCompute, written.2.2]
    exact (Word.getLsbD_marked_of_ne w (by decide) (by decide)).symm
  · rw [jump_encodeCompute, Word.jump_marked]

end HackMachine
