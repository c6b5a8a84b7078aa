import HackMachine.Proofs.Machine.Simulation

/-! # The closing loop

A closing loop is two words: the first loads its own address `p`, the second jumps always and writes
nothing.  A processor at `p` ticks back and forth between the two for ever, and only `A`, the program
counter and the tick counter move (`Cpu.tick_loop`, `Cpu.ticksFor_loop`).

There is one exception, which the emulator does not look for.  The jump may still read the memory cell
at `A`, and the program memory is larger than the data memory: a loop that reads a cell beyond the data
memory runs into a fault at its first jump, although the emulator has reported the program as done
(`Emulator.stays_idle_iff_cell_there`).
-/

namespace HackMachine

namespace Cpu

/-- The words of a closing loop at `p`. -/
structure LoopAt (rom : Array Word) (p jump : Word) : Prop where
  address : p.msb = false
  load : rom[p.toNat]? = some p
  next : rom[p.toNat + 1]? = some jump
  idle : Emulator.idleJump jump = true

/-- The jump of the loop at `p` reads a cell that there is not. -/
def LacksCell (cpu : Cpu) (p jump : Word) : Prop :=
  Word.readsMemory jump = true ∧ cpu.ram.size ≤ p.toNat

/-- The processor is at one of the two words, with `p` in `A` when it is at the jump. -/
def InLoop (p : Word) (cpu : Cpu) : Prop := cpu.pc = p ∨ (cpu.pc = p + 1#16 ∧ cpu.a = p)

/-- All of `n` ticks succeed, and nothing but the registers of the loop moves. -/
def StaysIdle (cpu : Cpu) (p : Word) (n : Nat) : Prop :=
  ∃ behind, cpu.ticksFor n = (behind, none) ∧ behind.d = cpu.d ∧ behind.ram = cpu.ram ∧
    (behind.pc = p ∨ behind.pc = p + 1#16) ∧ (0 < n → behind.a = p)

theorem idleJump_iff {word : Word} :
    Emulator.idleJump word = true ↔
      Word.isCompute word = true ∧ Word.writesA word = false ∧ Word.writesD word = false ∧
        Word.writesM word = false ∧ Word.jump word = .always := by
  simp only [Emulator.idleJump, Word.targets, Bool.and_eq_true, beq_iff_eq, List.isEmpty_iff,
    List.append_eq_nil_iff, and_assoc]
  cases Word.writesA word <;> cases Word.writesD word <;> cases Word.writesM word <;> simp

/-- The address behind one without bit 15 does not wrap. -/
theorem toNat_next {p : Word} (address : p.msb = false) : (p + 1#16).toNat = p.toNat + 1 := by
  have small := BitVec.msb_eq_false_iff_two_mul_lt.mp address
  rw [BitVec.toNat_add]
  simp only [BitVec.toNat_ofNat]
  omega

/-! ## One tick -/

section

variable {cpu : Cpu} {p jump : Word} (loop : LoopAt cpu.rom p jump)

include loop

/-- The first word is an address instruction, whatever the registers hold. -/
theorem tick_load (here : cpu.pc = p) :
    cpu.tick = ({ cpu with a := p, pc := p + 1#16, ticks := cpu.ticks + 1 }, none) := by
  have loads : Word.isCompute p = false := by rw [isCompute_eq_msb, loop.address]
  have found : cpu.rom[cpu.pc.toNat]? = some p := here ▸ loop.load
  have free : ¬ cpu.Blocked p := by simp [Blocked, Word.usesCell, loads]
  rw [tick_word found, if_neg free]
  simp [behind, loads, here]

/-- The second word goes back to the first, or cannot read its cell. -/
theorem tick_jump (here : cpu.pc = p + 1#16) (address : cpu.a = p) :
    (cpu.LacksCell p jump ∧
      cpu.tick = (cpu, some { cause := .memoryAddress, address := p, opcode := jump })) ∨
    (¬ cpu.LacksCell p jump ∧ cpu.tick = ({ cpu with pc := p, ticks := cpu.ticks + 1 }, none)) := by
  obtain ⟨computes, noA, noD, noM, always⟩ := idleJump_iff.mp loop.idle
  have found : cpu.rom[cpu.pc.toNat]? = some jump := by rw [here, toNat_next loop.address, loop.next]
  have blocked : cpu.Blocked jump ↔ cpu.LacksCell p jump := by
    simp [Blocked, LacksCell, Word.usesCell, computes, noM, address]
  -- Whatever the unit computes is negative, zero or positive, so the jump is taken.
  have taken : ∀ out, Jump.always.taken (Status.of out) = true := by
    intro out
    rw [taken_eq_holds]
    rfl
  rw [tick_word found]
  by_cases lacks : cpu.LacksCell p jump
  · exact .inl ⟨lacks, by rw [if_pos (blocked.mpr lacks), address]⟩
  · refine .inr ⟨lacks, ?_⟩
    rw [if_neg (fun stopped => lacks (blocked.mp stopped))]
    simp [behind, computes, noA, noD, noM, always, taken, address]

/-- One tick inside the loop succeeds and stays there. -/
theorem tick_loop (there : ¬ cpu.LacksCell p jump) (inLoop : InLoop p cpu) :
    ∃ behind, cpu.tick = (behind, none) ∧ behind.rom = cpu.rom ∧ behind.ram = cpu.ram ∧
      behind.d = cpu.d ∧ behind.a = p ∧ InLoop p behind := by
  rcases inLoop with here | ⟨here, address⟩
  · exact ⟨_, tick_load loop here, rfl, rfl, rfl, rfl, .inr ⟨rfl, rfl⟩⟩
  · obtain ⟨lacks, -⟩ | ⟨-, ticked⟩ := tick_jump loop here address
    · exact absurd lacks there
    · exact ⟨_, ticked, rfl, rfl, rfl, address, .inl rfl⟩

/-! ## Any number of ticks -/

theorem ticksFor_loop (there : ¬ cpu.LacksCell p jump) (inLoop : InLoop p cpu) (n : Nat) :
    cpu.StaysIdle p n := by
  induction n generalizing cpu with
  | zero =>
    refine ⟨cpu, rfl, rfl, rfl, ?_, fun positive => absurd positive (Nat.lt_irrefl 0)⟩
    rcases inLoop with here | ⟨here, -⟩
    · exact .inl here
    · exact .inr here
  | succ n ih =>
    obtain ⟨next, ticked, sameRom, sameRam, sameD, address, stays⟩ := tick_loop loop there inLoop
    -- The loop and the memory are as before, so the rest of the ticks is idle too.
    have there' : ¬ next.LacksCell p jump := by rwa [LacksCell, sameRam]
    obtain ⟨behind, ticks, keptD, keptRam, place, atP⟩ := ih (sameRom ▸ loop) there' stays
    refine ⟨behind, ?_, keptD.trans sameD, keptRam.trans sameRam, place, fun _ => ?_⟩
    · rw [ticksFor, ticked]
      exact ticks
    · cases n with
      | zero =>
        cases ticks
        exact address
      | succ n => exact atP (Nat.succ_pos n)

/-- Without the cell the second tick is a fault, and so is every longer run. -/
theorem ticksFor_fault (lacks : cpu.LacksCell p jump) (here : cpu.pc = p) (n : Nat) :
    (cpu.ticksFor (n + 2)).2 = some { cause := .memoryAddress, address := p, opcode := jump } := by
  let next : Cpu := { cpu with a := p, pc := p + 1#16, ticks := cpu.ticks + 1 }
  have loop' : LoopAt next.rom p jump := loop
  rw [ticksFor, tick_load loop here]
  change (next.ticksFor (n + 1)).2 = _
  obtain ⟨-, ticked⟩ | ⟨there, -⟩ := tick_jump loop' rfl rfl
  · rw [ticksFor, ticked]
  · exact absurd lacks there

end

end Cpu

namespace Emulator

theorem idle_iff_loopAt {e : Emulator} (small : e.cpu.rom.size ≤ romSize) {p : Word} :
    e.idle p = true ↔ ∃ jump, Cpu.LoopAt e.cpu.rom p jump := by
  rw [idle, Bool.and_eq_true, decide_eq_true_eq]
  constructor
  · intro idles
    obtain ⟨bound, idles⟩ := idles
    -- The program memory ends before the first address with bit 15 set.
    have address : p.msb = false := by
      rw [BitVec.msb_eq_false_iff_two_mul_lt]
      rw [romSize] at small
      omega
    rw [Cpu.toNat_next address] at idles
    split at idles
    · next load jump found next =>
      simp only [Bool.and_eq_true, beq_iff_eq] at idles
      obtain ⟨rfl, jumps⟩ := idles
      exact ⟨jump, address, found, next, jumps⟩
    · cases idles
  · intro looped
    obtain ⟨jump, loop⟩ := looped
    obtain ⟨bound, -⟩ := Array.getElem?_eq_some_iff.mp loop.next
    simp only [Cpu.toNat_next loop.address, loop.load, loop.next]
    exact ⟨bound, by simp [loop.idle]⟩

/-- A program that is reported as done inside of its program memory has reached a closing loop.  It
stays idle there exactly when the jump of the loop finds the cell that it reads, if it reads one;
otherwise the second tick from there on is a fault. -/
theorem stays_idle_iff_cell_there {e behind : Emulator} (small : e.cpu.rom.size ≤ romSize)
    (done : e.tick = (behind, .ok true)) (inside : behind.cpu.pc.toNat < behind.cpu.rom.size) :
    ∃ jump, behind.cpu.rom[behind.cpu.pc.toNat + 1]? = some jump ∧
      ((∀ n, behind.cpu.StaysIdle behind.cpu.pc n) ↔
        (Word.readsMemory jump = true → behind.cpu.pc.toNat < behind.cpu.ram.size)) ∧
      (Word.readsMemory jump = true → behind.cpu.ram.size ≤ behind.cpu.pc.toNat →
        ∀ n, (behind.cpu.ticksFor (n + 2)).2 =
          some { cause := .memoryAddress, address := behind.cpu.pc, opcode := jump }) := by
  have running : behind.cpu.outside = false := by simpa [Cpu.outside] using inside
  obtain ⟨outside, ticked⟩ | ⟨fault, -, -, ticked⟩ | ⟨cpu, -, kept, ticked⟩ := e.tick_cases
  · rw [ticked] at done
    cases done
    rw [running] at outside
    cases outside
  · rw [ticked] at done
    cases done
  · rw [ticked, Prod.mk.injEq, Except.ok.injEq] at done
    obtain ⟨rfl, stopped⟩ := done
    rw [running, Bool.false_or] at stopped
    obtain ⟨jump, loop⟩ := (idle_iff_loopAt (kept ▸ small)).mp stopped
    have fails := Cpu.ticksFor_fault loop
    refine ⟨jump, loop.next, ⟨fun idles reads => ?_, fun reaches n => ?_⟩, fun reads beyond n => ?_⟩
    · by_contra beyond
      obtain ⟨_, ticks, -⟩ := idles 2
      have failed := fails ⟨reads, Nat.not_lt.mp beyond⟩ rfl 0
      rw [ticks] at failed
      cases failed
    · refine Cpu.ticksFor_loop loop (fun lacks => ?_) (.inl rfl) n
      exact absurd lacks.2 (Nat.not_le.mpr (reaches lacks.1))
    · exact fails ⟨reads, beyond⟩ rfl n

/-- A loop of `A := 0` and `*A; jmp`, with one cell to read. -/
theorem stays_idle_in_short_loop :
    let e : Emulator :=
      { cpu := { a := 0#16, d := 7#16, pc := 1#16, ram := #[5#16], rom := #[0#16, 0xfc07#16] } }
    let behind : Emulator := { cpu := { e.cpu with pc := 0#16, ticks := 1 } }
    e.tick = (behind, .ok true) ∧ ∀ n, behind.cpu.StaysIdle 0#16 n := by
  intro e behind
  have done : e.tick = (behind, .ok true) := by decide
  obtain ⟨jump, -, idles, -⟩ := stays_idle_iff_cell_there (by decide) done (by decide)
  exact ⟨done, idles.mpr fun _ => by decide⟩

/-- As many instructions without effect as there are cells, then `A := 0x4000` and `*A; jmp`. -/
def deepLoop : List Word := List.replicate ramSize 0xea80#16 ++ [0x4000#16, 0xfc07#16]

/-- The processor at the last of the instructions without effect. -/
def beforeDeepLoop : Cpu := { Cpu.new ramSize with pc := 0x3fff#16, rom := deepLoop.toArray }

theorem length_deepLoop : deepLoop.length = ramSize + 2 := by
  rw [deepLoop, List.length_append, List.length_replicate]
  rfl

theorem deepLoop_loopAt : Cpu.LoopAt deepLoop.toArray 0x4000#16 0xfc07#16 := by
  have behind : ∀ i, ramSize ≤ i →
      deepLoop.toArray[i]? = [0x4000#16, 0xfc07#16][i - ramSize]? := by
    intro i beyond
    rw [List.getElem?_toArray, deepLoop, List.getElem?_append_right (by simpa using beyond),
      List.length_replicate]
  exact ⟨by decide, behind _ (by decide), behind _ (by decide), by decide⟩

theorem tick_beforeDeepLoop :
    beforeDeepLoop.tick = ({ beforeDeepLoop with pc := 0x4000#16, ticks := 1 }, none) := by
  have found : beforeDeepLoop.rom[beforeDeepLoop.pc.toNat]? = some 0xea80#16 := by
    change deepLoop.toArray[0x3fff]? = _
    rw [List.getElem?_toArray, deepLoop,
      List.getElem?_append_left (by rw [List.length_replicate]; decide), List.getElem?_replicate]
    rfl
  have free : ¬ beforeDeepLoop.Blocked 0xea80#16 := by
    intro blocked
    exact absurd blocked.1 (by decide)
  rw [Cpu.tick_word found, if_neg free]
  rfl

/-- The loop is reported as done, but it is not idle: its jump reads the first cell that there is not. -/
theorem deep_loop_not_idle :
    ∃ (cpu : Cpu) (behind : Emulator),
      Cpu.load { Cpu.new ramSize with pc := 0x3fff#16 } deepLoop = (cpu, none) ∧
      tick { cpu := cpu } = (behind, .ok true) ∧ behind.cpu.pc.toNat < behind.cpu.rom.size ∧
      ¬ ∀ n, behind.cpu.StaysIdle behind.cpu.pc n := by
  let behind : Emulator := { cpu := { beforeDeepLoop with pc := 0x4000#16, ticks := 1 } }
  have size : behind.cpu.rom.size = ramSize + 2 := length_deepLoop
  refine ⟨beforeDeepLoop, behind, ?_, ?_, ?_, ?_⟩
  · rw [Cpu.load_eq, if_neg (by rw [length_deepLoop]; decide)]
    rfl
  · have loops : behind.idle behind.cpu.pc = true :=
      (idle_iff_loopAt (by rw [size]; decide)).mpr ⟨_, deepLoop_loopAt⟩
    have running : beforeDeepLoop.outside = false := by
      change decide (0x3fff ≥ deepLoop.length) = false
      rw [length_deepLoop]
      decide
    simp only [tick, running, tick_beforeDeepLoop, Bool.false_eq_true, if_false]
    change (behind, Except.ok (behind.cpu.outside || behind.idle behind.cpu.pc)) = _
    rw [loops, Bool.or_true]
  · rw [size]
    decide
  · intro idles
    obtain ⟨_, ticks, -⟩ := idles 2
    have lacks : behind.cpu.LacksCell 0x4000#16 0xfc07#16 := by
      refine ⟨by decide, ?_⟩
      change (Array.replicate ramSize 0#16).size ≤ 0x4000
      rw [Array.size_replicate]
      decide
    have loop : Cpu.LoopAt behind.cpu.rom 0x4000#16 0xfc07#16 := deepLoop_loopAt
    have failed := Cpu.ticksFor_fault loop lacks rfl 0
    rw [ticks] at failed
    cases failed

end Emulator

end HackMachine
