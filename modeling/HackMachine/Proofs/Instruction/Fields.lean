import HackMachine.Instruction.Encoding

/-! # The fields of a compute word

Each field of a compute word is read back as it was packed, so later arguments speak of expressions,
targets and jumps and not of bits.
-/

namespace HackMachine

@[simp]
theorem getElem_flag {width : Nat} (index : Nat) (set : Bool) (i : Nat) (bound : i < width) :
    (flag index set : BitVec width)[i] = (set && decide (index = i)) := by
  rw [← BitVec.getLsbD_eq_getElem, getLsbD_flag]
  simp [bound]

@[simp]
theorem Jump.ofSigns_on (jump : Jump) :
    Jump.ofSigns jump.onNegative jump.onZero jump.onPositive = jump := by
  cases jump <;> rfl

@[simp]
theorem Expr.usesMemory_normalize (expr : Expr) : expr.normalize.usesMemory = expr.usesMemory := by
  cases expr with
  | binary x op y =>
    rw [Expr.normalize]
    split
    · simp [Expr.usesMemory, Bool.or_comm]
    · rfl
  | _ => rfl

section

variable (targets : List Register) (expr : Expr) (jump : Jump)

@[simp]
theorem isCompute_encodeCompute : Word.isCompute (encodeCompute targets expr jump) = true := by
  simp [Word.isCompute, encodeCompute, encodeOperation, computeMark]

@[simp]
theorem readsMemory_encodeCompute :
    Word.readsMemory (encodeCompute targets expr jump) = expr.usesMemory := by
  simp [Word.readsMemory, encodeCompute, encodeOperation, computeMark, Jump.bits, Expr.operation]

@[simp]
theorem control_encodeCompute :
    Word.control (encodeCompute targets expr jump) = expr.normalize.control := by
  simp [Word.control, Control.ofBits, encodeCompute, encodeOperation, computeMark, Jump.bits,
    Expr.operation]

@[simp]
theorem writesA_encodeCompute :
    Word.writesA (encodeCompute targets expr jump) = targets.contains .a := by
  simp [Word.writesA, encodeCompute, encodeOperation, computeMark, Jump.bits]

@[simp]
theorem writesD_encodeCompute :
    Word.writesD (encodeCompute targets expr jump) = targets.contains .d := by
  simp [Word.writesD, encodeCompute, encodeOperation, computeMark, Jump.bits]

@[simp]
theorem writesM_encodeCompute :
    Word.writesM (encodeCompute targets expr jump) = targets.contains .m := by
  simp [Word.writesM, encodeCompute, encodeOperation, computeMark, Jump.bits]

@[simp]
theorem jump_encodeCompute : Word.jump (encodeCompute targets expr jump) = jump := by
  simp [Word.jump, encodeCompute, encodeOperation, computeMark, Jump.bits]

end

theorem isCompute_eq_msb (w : Word) : Word.isCompute w = w.msb := by
  rw [Word.isCompute, BitVec.msb_eq_getLsbD_last]

end HackMachine
