import HackMachine.Machine.Emulator

/-! # When the machine fails

An instruction is blocked when it needs a memory cell and `A` addresses none.  `Cpu.execute_eq` says
that a blocked instruction is a fault and nothing else, and that any other one goes to `Cpu.behind`;
ticks, loads and the emulator inherit that.  So an error leaves the machine as it was.
-/

namespace HackMachine

/-- The word computes with the memory cell or stores into it. -/
def Word.usesCell (word : Word) : Bool :=
  Word.isCompute word && (Word.readsMemory word || Word.writesM word)

namespace Cpu

/-- The instruction needs a cell, and there is none at `A`. -/
def Blocked (cpu : Cpu) (word : Word) : Prop :=
  Word.usesCell word = true ∧ cpu.ram.size ≤ cpu.a.toNat

instance (cpu : Cpu) (word : Word) : Decidable (cpu.Blocked word) :=
  inferInstanceAs (Decidable (_ ∧ _))

/-- What a compute word puts into its targets. -/
def output (cpu : Cpu) (word : Word) : Word :=
  (Word.control word).result cpu.d
    (if Word.readsMemory word then cpu.ram[cpu.a.toNat]?.getD 0#16 else cpu.a)

/-- The processor behind an instruction that is not blocked. -/
def behind (cpu : Cpu) (word : Word) : Cpu :=
  if Word.isCompute word then
    { cpu with
      a := if Word.writesA word then cpu.output word else cpu.a
      d := if Word.writesD word then cpu.output word else cpu.d
      pc := if (Word.jump word).taken (Status.of (cpu.output word)) then cpu.a else cpu.pc + 1
      ram := if Word.writesM word then cpu.ram.setIfInBounds cpu.a.toNat (cpu.output word) else cpu.ram }
  else { cpu with a := word, pc := cpu.pc + 1 }

/-! ## Memory accesses and loading -/

theorem getElem?_eq_ite (memory : Array Word) (i : Nat) :
    memory[i]? = if memory.size ≤ i then none else some (memory[i]?.getD 0#16) := by
  by_cases outside : memory.size ≤ i
  · rw [if_pos outside, Array.getElem?_eq_none outside]
  · rw [if_neg outside, Array.getElem?_eq_getElem (Nat.lt_of_not_le outside)]
    rfl

theorem peek_eq (cpu : Cpu) (address : Word) :
    cpu.peek address =
      if cpu.ram.size ≤ address.toNat then .error { cause := .memoryAddress, address := address }
      else .ok (cpu.ram[address.toNat]?.getD 0#16) := by
  rw [peek, getElem?_eq_ite]
  by_cases outside : cpu.ram.size ≤ address.toNat
  · simp only [outside, if_true]
  · simp only [outside, if_false, Option.getD_some]

theorem poke_eq (cpu : Cpu) (address value : Word) :
    cpu.poke address value =
      if cpu.ram.size ≤ address.toNat then
        (cpu, some { cause := .memoryAddress, address := address })
      else ({ cpu with ram := cpu.ram.setIfInBounds address.toNat value }, none) := by
  unfold poke
  split
  · rw [if_neg (by omega)]
  · rw [if_pos (by omega)]

theorem load_eq (cpu : Cpu) (words : List Word) :
    cpu.load words =
      if 32768 < words.length then (cpu, some { cause := .programSize })
      else ({ cpu with rom := words.toArray }, none) := rfl

theorem load_unchanged {cpu : Cpu} {words : List Word} (failed : (cpu.load words).2.isSome) :
    (cpu.load words).1 = cpu := by
  rw [load_eq] at failed ⊢
  by_cases long : 32768 < words.length
  · rw [if_pos long]
  · rw [if_neg long] at failed
    cases failed

theorem fetch_eq (cpu : Cpu) :
    cpu.fetch =
      if cpu.rom.size ≤ cpu.pc.toNat then .error { cause := .programCounter, address := cpu.pc }
      else .ok (cpu.rom[cpu.pc.toNat]?.getD 0#16) := by
  rw [fetch, getElem?_eq_ite]
  by_cases outside : cpu.rom.size ≤ cpu.pc.toNat
  · simp only [outside, if_true]
  · simp only [outside, if_false, Option.getD_some]

/-! ## Instructions and ticks -/

/-- An instruction fails exactly when it is blocked; both accesses of a computation are to the same
cell, so the second one cannot fail behind the first. -/
theorem execute_eq (cpu : Cpu) (word : Word) :
    cpu.execute word =
      if cpu.Blocked word then
        (cpu, some { cause := .memoryAddress, address := cpu.a, opcode := word })
      else (cpu.behind word, none) := by
  unfold execute Blocked Word.usesCell behind output
  by_cases computes : Word.isCompute word = true
  · simp only [computes, if_true, Bool.true_and, Bool.or_eq_true, operand, Control.compute]
    by_cases outside : cpu.ram.size ≤ cpu.a.toNat
    · by_cases reads : Word.readsMemory word = true
      · simp [reads, outside, peek_eq, Fault.during]
      · by_cases writes : Word.writesM word = true
        · simp [reads, writes, outside, poke_eq, Fault.during]
        · simp [reads, writes, finish]
    · by_cases reads : Word.readsMemory word = true
      · by_cases writes : Word.writesM word = true
        · simp [reads, writes, outside, peek_eq, poke_eq, finish]
        · simp [reads, writes, outside, peek_eq, finish]
      · by_cases writes : Word.writesM word = true
        · simp [reads, writes, outside, poke_eq, finish]
        · simp [reads, writes, finish]
  · simp [computes]

@[simp] theorem behind_rom (cpu : Cpu) (word : Word) : (cpu.behind word).rom = cpu.rom := by
  unfold behind
  split <;> rfl

/-- A tick fails outside of the program or at a blocked instruction, and else counts one more. -/
theorem tick_eq (cpu : Cpu) :
    cpu.tick =
      if cpu.rom.size ≤ cpu.pc.toNat then (cpu, some { cause := .programCounter, address := cpu.pc })
      else
        let word := cpu.rom[cpu.pc.toNat]?.getD 0#16
        if cpu.Blocked word then
          (cpu, some { cause := .memoryAddress, address := cpu.a, opcode := word })
        else ({ cpu.behind word with ticks := cpu.ticks + 1 }, none) := by
  unfold tick
  rw [fetch_eq]
  by_cases outside : cpu.rom.size ≤ cpu.pc.toNat
  · simp only [outside, if_true]
  · simp only [outside, if_false, execute_eq]
    generalize cpu.rom[cpu.pc.toNat]?.getD 0#16 = word
    by_cases blocked : cpu.Blocked word
    · simp only [blocked, if_true]
    · have counted : (cpu.behind word).ticks = cpu.ticks := by
        unfold behind
        split <;> rfl
      simp only [blocked, if_false, counted]

theorem tick_word {cpu : Cpu} {word : Word} (found : cpu.rom[cpu.pc.toNat]? = some word) :
    cpu.tick =
      if cpu.Blocked word then
        (cpu, some { cause := .memoryAddress, address := cpu.a, opcode := word })
      else ({ cpu.behind word with ticks := cpu.ticks + 1 }, none) := by
  have inside : ¬ cpu.rom.size ≤ cpu.pc.toNat := by
    intro outside
    rw [Array.getElem?_eq_none outside] at found
    cases found
  rw [tick_eq, if_neg inside]
  simp only [found, Option.getD_some]

/-- An instruction fails and changes nothing, or it succeeds and leaves the program as it is. -/
theorem execute_cases (cpu : Cpu) (word : Word) :
    (∃ fault, cpu.execute word = (cpu, some fault)) ∨
      ∃ behind, cpu.execute word = (behind, none) ∧ behind.rom = cpu.rom := by
  rw [execute_eq]
  by_cases blocked : cpu.Blocked word
  · rw [if_pos blocked]
    exact .inl ⟨_, rfl⟩
  · rw [if_neg blocked]
    exact .inr ⟨_, rfl, cpu.behind_rom word⟩

theorem tick_cases (cpu : Cpu) :
    (∃ fault, cpu.tick = (cpu, some fault)) ∨
      ∃ behind, cpu.tick = (behind, none) ∧ behind.rom = cpu.rom := by
  rw [tick_eq]
  by_cases outside : cpu.rom.size ≤ cpu.pc.toNat
  · rw [if_pos outside]
    exact .inl ⟨_, rfl⟩
  · rw [if_neg outside]
    by_cases blocked : cpu.Blocked (cpu.rom[cpu.pc.toNat]?.getD 0#16)
    · exact .inl ⟨_, if_pos blocked⟩
    · exact .inr ⟨_, if_neg blocked, cpu.behind_rom _⟩

/-! ## Data memory behind an instruction -/

theorem behind_ram_size (cpu : Cpu) (word : Word) : (cpu.behind word).ram.size = cpu.ram.size := by
  unfold behind
  split
  · dsimp only
    split
    · exact Array.size_setIfInBounds
    · rfl
  · rfl

/-- No cell but the one at the old `A` changes. -/
theorem behind_ram_other (cpu : Cpu) (word : Word) {i : Nat} (other : i ≠ cpu.a.toNat) :
    (cpu.behind word).ram[i]? = cpu.ram[i]? := by
  unfold behind
  split
  · dsimp only
    split
    · exact Array.getElem?_setIfInBounds_ne other.symm
    · rfl
  · rfl

theorem writes_of_behind_ram_ne {cpu : Cpu} {word : Word}
    (changed : (cpu.behind word).ram ≠ cpu.ram) :
    Word.isCompute word = true ∧ Word.writesM word = true := by
  unfold behind at changed
  by_cases computes : Word.isCompute word = true
  · by_cases writes : Word.writesM word = true
    · exact ⟨computes, writes⟩
    · rw [if_pos computes, if_neg writes] at changed
      exact absurd rfl changed
  · rw [if_neg computes] at changed
    exact absurd rfl changed

/-! ## When an operation fails -/

theorem execute_fails_iff {cpu : Cpu} {word : Word} :
    (cpu.execute word).2.isSome ↔ cpu.Blocked word := by
  rw [execute_eq]
  by_cases blocked : cpu.Blocked word
  · simp [blocked]
  · simp [blocked]

theorem tick_fails_iff {cpu : Cpu} :
    cpu.tick.2.isSome ↔
      cpu.rom.size ≤ cpu.pc.toNat ∨ ∃ word, cpu.fetch = .ok word ∧ (cpu.execute word).2.isSome := by
  rw [tick_eq, fetch_eq]
  by_cases outside : cpu.rom.size ≤ cpu.pc.toNat
  · simp [outside]
  · simp only [outside, if_false, false_or, Except.ok.injEq, exists_eq_left', execute_fails_iff]
    by_cases blocked : cpu.Blocked (cpu.rom[cpu.pc.toNat]?.getD 0#16)
    · simp [blocked]
    · simp [blocked]

/-- The operations of a processor fail where they should and nowhere else. -/
structure FailsExactly (cpu : Cpu) : Prop where
  execute : ∀ word : Word, (cpu.execute word).2.isSome ↔
    word.getLsbD 15 = true ∧ (word.getLsbD 12 = true ∨ word.getLsbD 3 = true) ∧
      cpu.ram.size ≤ cpu.a.toNat
  tick : cpu.tick.2.isSome ↔
    cpu.rom.size ≤ cpu.pc.toNat ∨ ∃ word, cpu.fetch = .ok word ∧ (cpu.execute word).2.isSome
  load : ∀ words, (cpu.load words).2.isSome ↔ 32768 < words.length
  peek : ∀ address, (∃ fault, cpu.peek address = .error fault) ↔ cpu.ram.size ≤ address.toNat
  poke : ∀ address value, (cpu.poke address value).2.isSome ↔ cpu.ram.size ≤ address.toNat

theorem failsExactly (cpu : Cpu) : cpu.FailsExactly where
  execute word := by
    rw [execute_fails_iff, Blocked, Word.usesCell, Bool.and_eq_true, Bool.or_eq_true, and_assoc]
    rfl
  tick := tick_fails_iff
  load words := by
    rw [load_eq]
    by_cases long : 32768 < words.length
    · simp [long]
    · simp [long]
  peek address := by
    rw [peek_eq]
    by_cases outside : cpu.ram.size ≤ address.toNat
    · simp [outside]
    · simp [outside]
  poke address value := by
    rw [poke_eq]
    by_cases outside : cpu.ram.size ≤ address.toNat
    · simp [outside]
    · simp [outside]

end Cpu

namespace Emulator

/-- An operation that fails leaves the registers, the counters and both memories as they were. -/
structure UnchangedOnError (e : Emulator) : Prop where
  execute : ∀ word, (e.cpu.execute word).2.isSome → (e.cpu.execute word).1 = e.cpu
  cpuTick : e.cpu.tick.2.isSome → e.cpu.tick.1 = e.cpu
  load : ∀ words, (e.cpu.load words).2.isSome → (e.cpu.load words).1 = e.cpu
  poke : ∀ address value,
    (e.cpu.poke address value).2.isSome → (e.cpu.poke address value).1 = e.cpu
  tick : ∀ error, e.tick.2 = .error error → e.tick.1 = e
  reset : e.reset.2.isSome → e.reset.1 = e

/-- What a tick can do: nothing outside of the program, fail with the processor and change nothing, or
go on with the processor. -/
theorem tick_cases (e : Emulator) :
    (e.cpu.outside = true ∧ e.tick = (e, .ok true)) ∨
    (∃ fault, e.cpu.outside = false ∧ e.cpu.tick = (e.cpu, some fault) ∧
      e.tick = (e, .error ⟨e.lineNo, fault⟩)) ∨
    ∃ cpu, e.cpu.tick = (cpu, none) ∧ cpu.rom = e.cpu.rom ∧
      e.tick = (⟨cpu, e.program⟩, .ok (cpu.outside || idle ⟨cpu, e.program⟩ cpu.pc)) := by
  unfold tick
  cases outside : e.cpu.outside with
  | true => exact .inl ⟨rfl, rfl⟩
  | false =>
    obtain ⟨fault, ticked⟩ | ⟨cpu, ticked, kept⟩ := e.cpu.tick_cases
    · refine .inr (.inl ⟨fault, rfl, ticked, ?_⟩)
      simp only [ticked]
      rfl
    · refine .inr (.inr ⟨cpu, ticked, kept, ?_⟩)
      simp only [ticked]
      rfl

theorem tick_unchanged {e : Emulator} {error : RuntimeError} (failed : e.tick.2 = .error error) :
    e.tick.1 = e := by
  obtain ⟨-, ticked⟩ | ⟨fault, -, -, ticked⟩ | ⟨cpu, -, -, ticked⟩ := e.tick_cases
  · rw [ticked]
  · rw [ticked]
  · rw [ticked] at failed
    cases failed

theorem reset_unchanged {e : Emulator} (failed : e.reset.2.isSome) : e.reset.1 = e := by
  unfold reset at failed ⊢
  have kept := @Cpu.load_unchanged e.cpu e.program.words
  rcases loaded : e.cpu.load e.program.words with ⟨cpu, _ | fault⟩
  · simp only [loaded] at failed
    cases failed
  · rw [loaded] at kept
    have same : cpu = e.cpu := kept rfl
    rw [same]

theorem unchangedOnError (e : Emulator) : e.UnchangedOnError where
  execute word failed := by
    obtain ⟨fault, executed⟩ | ⟨behind, executed, -⟩ := e.cpu.execute_cases word
    · rw [executed]
    · rw [executed] at failed
      cases failed
  cpuTick failed := by
    obtain ⟨fault, ticked⟩ | ⟨behind, ticked, -⟩ := e.cpu.tick_cases
    · rw [ticked]
    · rw [ticked] at failed
      cases failed
  load _ failed := Cpu.load_unchanged failed
  poke address value failed := by
    rw [Cpu.poke_eq] at failed ⊢
    by_cases outside : e.cpu.ram.size ≤ address.toNat
    · rw [if_pos outside]
    · rw [if_neg outside] at failed
      cases failed
  tick _ failed := tick_unchanged failed
  reset failed := reset_unchanged failed

/-- Whatever the machine holds, each of its operations fails exactly when it must, a failure changes
nothing, and an instruction that succeeds changes at most the cell at the old `A`, and that only when
it is a computation with the memory cell among its targets. -/
theorem failures_exact_and_atomic (e : Emulator) :
    e.cpu.FailsExactly ∧ e.UnchangedOnError ∧
    ∀ word, (e.cpu.execute word).2 = none →
      (e.cpu.execute word).1.ram.size = e.cpu.ram.size ∧
      (∀ i, i ≠ e.cpu.a.toNat → (e.cpu.execute word).1.ram[i]? = e.cpu.ram[i]?) ∧
      ((e.cpu.execute word).1.ram ≠ e.cpu.ram → word.getLsbD 15 = true ∧ word.getLsbD 3 = true) := by
  refine ⟨e.cpu.failsExactly, e.unchangedOnError, fun word succeeded => ?_⟩
  have free : ¬ e.cpu.Blocked word := by
    rw [← Cpu.execute_fails_iff, succeeded]
    exact nofun
  rw [Cpu.execute_eq, if_neg free]
  exact ⟨e.cpu.behind_ram_size word, fun i other => e.cpu.behind_ram_other word other,
    Cpu.writes_of_behind_ram_ne⟩

/-- `*A = D` with `A` at the second of two cells. -/
theorem failures_exact_and_atomic_store :
    let e : Emulator := { cpu := { a := 1#16, d := 7#16, ram := #[3#16, 4#16] } }
    (e.cpu.execute 0xe308#16).2 = none ∧ (e.cpu.execute 0xe308#16).1.ram ≠ e.cpu.ram ∧
      (e.cpu.execute 0xe308#16).1.ram[0]? = e.cpu.ram[0]? ∧
      (0xe308#16).getLsbD 15 = true ∧ (0xe308#16).getLsbD 3 = true := by
  intro e
  obtain ⟨-, others, writes⟩ := (failures_exact_and_atomic e).2.2 0xe308#16 (by decide)
  exact ⟨by decide, by decide, others 0 (by decide), writes (by decide)⟩

end Emulator

end HackMachine
