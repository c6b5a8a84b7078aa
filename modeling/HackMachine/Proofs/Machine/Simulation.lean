import HackMachine.Proofs.Instruction.Arithmetic
import HackMachine.Proofs.Machine.Faults
import HackMachine.Proofs.Machine.Interpreter
import HackMachine.Proofs.Program.Resolution

/-! # Assembled programs do what their source says

One tick of a processor that holds the words of a valid program is one instruction of the interpreter
(`tick_interprets`), so a run is a run (`ticks_interpret`): the same registers and memory behind every
tick, and a fault at the same tick.
-/

namespace HackMachine

theorem taken_eq_holds (jump : Jump) (v : Word) : jump.taken (Status.of v) = jump.holds v.toInt := by
  rw [Bool.eq_iff_iff, Jump.taken_iff]
  generalize v.toInt = n
  cases jump <;> simp [Jump.onNegative, Jump.onZero, Jump.onPositive, Jump.holds] <;> omega

namespace Cpu

/-- The state behind an operation that did not fail. -/
def outcome : Cpu × Option Fault → Option State
  | (behind, none) => some behind.state
  | (_, some _) => none

/-- At most `k` ticks, up to the first fault. -/
def ticksFor (cpu : Cpu) : Nat → Cpu × Option Fault
  | 0 => (cpu, none)
  | k + 1 =>
    match cpu.tick with
    | (behind, none) => behind.ticksFor k
    | (behind, some fault) => (behind, some fault)

/-! ## Single instructions -/

theorem operand_eq (cpu : Cpu) (word : Word) :
    cpu.operand word =
      match cpu.state.second (Word.readsMemory word) with
      | some y => .ok y
      | none => .error { cause := .memoryAddress, address := cpu.a } := by
  unfold operand State.second
  split
  · rfl
  · rfl

theorem execute_load {word : Word} (clear : word.msb = false) (cpu : Cpu) :
    outcome (cpu.execute word) = some { cpu.state with a := word, pc := cpu.pc + 1#16 } := by
  rw [execute, isCompute_eq_msb, clear]
  rfl

theorem execute_compute {e : Expr} (fits : e.OperandsFit) (targets : List Register) (jump : Jump)
    (cpu : Cpu) :
    outcome (cpu.execute (encodeCompute targets e jump)) = do
      let v ← e.eval cpu.state.read
      let stored ← cpu.state.store targets v
      return { stored with pc := if jump.holds v.toInt then cpu.a else cpu.pc + 1#16 } := by
  simp only [execute, isCompute_encodeCompute, if_true, operand_eq, readsMemory_encodeCompute,
    control_encodeCompute, writesM_encodeCompute, eval_eq_result fits, Control.compute]
  cases cpu.state.second e.usesMemory with
  | none => rfl
  | some y =>
    generalize e.normalize.control.result cpu.d y = v
    -- With both inputs there, only a write outside of the memory can fail.
    by_cases writes : .m ∈ targets
    · by_cases outside : cpu.ram.size ≤ cpu.a.toNat
      · simp [poke_eq, writes, outside, State.store, state, outcome]
      · simp [poke_eq, writes, outside, State.store, state, outcome, finish, taken_eq_holds]
    · simp [writes, State.store, state, outcome, finish, taken_eq_holds]

/-! ## Ticks -/

theorem outcome_tick (cpu : Cpu) :
    outcome cpu.tick = cpu.rom[cpu.pc.toNat]?.bind fun word => outcome (cpu.execute word) := by
  unfold tick fetch
  cases cpu.rom[cpu.pc.toNat]? with
  | none => rfl
  | some word =>
    dsimp only [Option.bind_some]
    rcases cpu.execute word with ⟨behind, _ | fault⟩ <;> rfl

end Cpu

/-- The processor holds the words of a program. -/
def Cpu.Holds (cpu : Cpu) (items : List Item) : Prop :=
  cpu.rom = ((instructions items).map fun item => directWord (index items) item.statement).toArray

section

variable {items : List Item} (valid : Valid items)

include valid

/-- The word of an instruction does what the instruction says. -/
theorem execute_performs {item : Item} (member : item ∈ instructions items) (cpu : Cpu) :
    Cpu.outcome (cpu.execute (directWord (index items) item.statement)) =
      item.statement.perform items cpu.state := by
  obtain ⟨listed, slot⟩ := List.mem_filter.mp member
  have fits := valid.fits item listed
  have resolved := valid.resolved item listed
  obtain ⟨lineNo, line, statement⟩ := item
  cases statement with
  | label name pos => cases slot
  | address target targetPos pos =>
    cases target with
    | value value => exact Cpu.execute_load (msb_lowWord fits.1 fits.2) cpu
    | label name =>
      obtain ⟨count, declared, range⟩ := resolved name rfl
      have found := valid.find?_index_iff.mpr ⟨count, declared, rfl⟩
      have addressed := (addressOf?_eq_some_iff valid.distinct).mpr declared
      simp only [directWord, found, Option.getD_some, Statement.perform, addressed]
      rw [Cpu.execute_load (msb_lowWord (by omega) range)]
      simp [lowWord, Cpu.state]
  | compute c pos => exact Cpu.execute_compute fits.2 c.registers c.jump cpu

theorem tick_interprets {cpu : Cpu} (held : cpu.Holds items) :
    Cpu.outcome cpu.tick = interpretOne items cpu.state := by
  rw [Cpu.outcome_tick, held, interpretOne]
  have placed : cpu.state.pc = cpu.pc := rfl
  rw [placed]
  cases found : (instructions items)[cpu.pc.toNat]? with
  | none => simp [found]
  | some item =>
    simp only [List.getElem?_toArray, List.getElem?_map, found, Option.map_some, Option.bind_some]
    exact execute_performs valid (List.mem_of_getElem? found) cpu

/-- Both runs are in the same state behind every tick, and stop at the same one. -/
theorem ticks_interpret {cpu : Cpu} (held : cpu.Holds items) (k : Nat) :
    ((cpu.ticksFor k).1.state, (cpu.ticksFor k).2.isSome) = interpret items k cpu.state := by
  induction k generalizing cpu with
  | zero => rfl
  | succ k ih =>
    rw [interpret, ← tick_interprets valid held, Cpu.ticksFor]
    obtain ⟨fault, ticked⟩ | ⟨behind, ticked, kept⟩ := cpu.tick_cases
    · rw [ticked]
      rfl
    · -- A tick keeps the program memory, so the words are still there for the next one.
      rw [ticked]
      exact ih (kept.trans held)

end

/-- An assembled program that fits into the program memory runs as its source says: whatever the
registers and the data memory hold, the processor is behind every tick where the interpreter of the
parsed instructions is, and it fails at the tick at which the interpreter stops. -/
theorem assembled_words_run_as_written [Constant.Evaluator] {source : Bytes} {program : Program}
    (assembled : assemble source = .ok program) (short : program.words.length ≤ 32768) :
    ∃ items, parse source = .ok items ∧ program.words.length = (instructions items).length ∧
      ∀ cpu : Cpu, ∃ loaded, cpu.load program.words = (loaded, none) ∧ loaded.state = cpu.state ∧
        ∀ k, ((loaded.ticksFor k).1.state, (loaded.ticksFor k).2.isSome) =
          interpret items k cpu.state := by
  obtain ⟨items, parsed, valid, rfl⟩ := assemble_eq_ok_iff.mp assembled
  rw [words_direct] at short ⊢
  refine ⟨items, parsed, by simp, fun cpu => ?_⟩
  let loaded : Cpu := { cpu with
    rom := ((instructions items).map fun item => directWord (index items) item.statement).toArray }
  have held : loaded.Holds items := rfl
  exact ⟨loaded, if_neg (Nat.not_lt.mpr short), rfl, fun k => ticks_interpret valid held k⟩

theorem store_and_jump_runs_as_written :
    ∃ items, parse (ascii "A := @end\n*A = D - A; jne\nend:") = .ok items ∧
      ∀ cpu : Cpu, ∃ loaded, cpu.load [0x0002#16, 0xe4cd#16] = (loaded, none) ∧
        ∀ k, ((loaded.ticksFor k).1.state, (loaded.ticksFor k).2.isSome) =
          interpret items k cpu.state := by
  have assembled : assemble (ascii "A := @end\n*A = D - A; jne\nend:") =
      .ok ⟨[⟨1, 0, ascii "A := @end", 0x0002#16, none⟩,
        ⟨2, 1, ascii "*A = D - A; jne", 0xe4cd#16, none⟩], [(ascii "end", 2)]⟩ := by
    decide +kernel
  obtain ⟨items, parsed, -, runs⟩ := assembled_words_run_as_written assembled (by decide)
  refine ⟨items, parsed, fun cpu => ?_⟩
  obtain ⟨loaded, loads, -, agree⟩ := runs cpu
  exact ⟨loaded, loads, agree⟩

end HackMachine
