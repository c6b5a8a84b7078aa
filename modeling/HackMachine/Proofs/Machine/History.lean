import HackMachine.Proofs.Machine.Faults

/-! # Histories of a processor

A `Record` is a processor together with the events that led to it from a new one, the latest first.
Everything but the registers can be read off these events: the program is the one that was loaded last,
a cell holds what was stored there last, and the tick counter counts the ticks since the last reset.
`Explained` states this of a record; one action keeps it (`Explained.step`), so every history has it
(`history_explains_state`).
-/

namespace HackMachine

namespace Cpu

/-- What can be done with a processor. -/
inductive Action where
  | load (words : List Word)
  | reset
  | setA (value : Word)
  | setD (value : Word)
  | setPc (value : Word)
  | peek (address : Word)
  | poke (address value : Word)
  | fetch
  | execute (word : Word)
  | tick
  deriving DecidableEq, Repr

def readFault : Except Fault Word → Option Fault
  | .ok _ => none
  | .error fault => some fault

/-- The processor behind an action, and the fault of an action that failed. -/
def perform (cpu : Cpu) : Action → Cpu × Option Fault
  | .load words => cpu.load words
  | .reset => (cpu.reset, none)
  | .setA value => ({ cpu with a := value }, none)
  | .setD value => ({ cpu with d := value }, none)
  | .setPc value => ({ cpu with pc := value }, none)
  | .peek address => (cpu, readFault (cpu.peek address))
  | .poke address value => cpu.poke address value
  | .fetch => (cpu, readFault cpu.fetch)
  | .execute word => cpu.execute word
  | .tick => cpu.tick

/-- An action with the processor it was done to, and its fault. -/
structure Event where
  before : Cpu
  action : Action
  fault : Option Fault

/-- A processor and what was done to it, the latest event first. -/
structure Record where
  cpu : Cpu
  events : List Event

def Record.step (r : Record) (action : Action) : Record :=
  ⟨(r.cpu.perform action).1, ⟨r.cpu, action, (r.cpu.perform action).2⟩ :: r.events⟩

/-- A new processor with `size` cells behind some actions. -/
def record (size : Nat) (actions : List Action) : Record :=
  actions.foldl Record.step ⟨Cpu.new size, []⟩

/-! ## What an event did -/

/-- The address and the value of a computation into the memory cell. -/
def store? (cpu : Cpu) (word : Word) : Option (Word × Word) :=
  if Word.isCompute word && Word.writesM word then some (cpu.a, cpu.output word) else none

namespace Event

/-- The action, if it succeeded. -/
def done? (e : Event) : Option Action := if e.fault.isNone then some e.action else none

@[simp] theorem done?_none (cpu : Cpu) (action : Action) : done? ⟨cpu, action, none⟩ = some action := rfl

@[simp] theorem done?_some (cpu : Cpu) (action : Action) (fault : Fault) :
    done? ⟨cpu, action, some fault⟩ = none := rfl

/-- The program that was put into the program memory. -/
def loaded? (e : Event) : Option (List Word) :=
  match e.done? with
  | some (.load words) => some words
  | _ => none

/-- What was stored, with its address: by a poke, or by an instruction. -/
def store? (e : Event) : Option (Word × Word) :=
  match e.done? with
  | some (.poke address value) => some (address, value)
  | some (.execute word) => e.before.store? word
  | some .tick => e.before.rom[e.before.pc.toNat]?.bind e.before.store?
  | _ => none

/-- The value that went into cell `i`. -/
def stored? (i : Nat) (e : Event) : Option Word :=
  e.store?.bind fun store => if store.1.toNat = i then some store.2 else none

def isReset (e : Event) : Bool := e.done? == some .reset

def isTick (e : Event) : Bool := e.done? == some .tick

end Event

/-- The instruction is a computation whose jump is taken. -/
def jumps (cpu : Cpu) (word : Word) : Bool :=
  Word.isCompute word && (Word.jump word).taken (Status.of (cpu.output word))

/-- The state of a processor with `size` cells follows from its events. -/
structure Explained (size : Nat) (r : Record) : Prop where
  ramSize : r.cpu.ram.size = size
  /-- The program memory holds the program that was loaded last, and nothing else. -/
  rom : r.cpu.rom = ((r.events.findSome? Event.loaded?).getD []).toArray
  romSize : r.cpu.rom.size ≤ 32768
  /-- The counter counts the ticks that succeeded since the last reset. -/
  ticks : r.cpu.ticks = (r.events.takeWhile (!·.isReset)).countP Event.isTick
  /-- A cell holds what was stored there last. -/
  cells : ∀ i < size, r.cpu.ram[i]? = some ((r.events.findSome? (Event.stored? i)).getD 0#16)
  /-- A tick that succeeds jumps to `A` or goes on to the next address, which has no wrap. -/
  counter : ∀ behind, r.cpu.tick = (behind, none) →
    ∃ word, r.cpu.rom[r.cpu.pc.toNat]? = some word ∧
      if r.cpu.jumps word then behind.pc = r.cpu.a
      else behind.pc.toNat = r.cpu.pc.toNat + 1 ∧ behind.pc.toNat ≤ 32768

/-! ## Instructions -/

theorem behind_ticks (cpu : Cpu) (word : Word) : (cpu.behind word).ticks = cpu.ticks := by
  unfold behind
  split <;> rfl

theorem behind_pc (cpu : Cpu) (word : Word) :
    (cpu.behind word).pc = if cpu.jumps word then cpu.a else cpu.pc + 1 := by
  unfold behind jumps
  by_cases computes : Word.isCompute word = true
  · simp [computes]
  · simp [computes]

/-- The cell that a computation stores into is there, as the instruction is not blocked. -/
theorem behind_cell {cpu : Cpu} {word : Word} (free : ¬ cpu.Blocked word) (i : Nat) :
    (cpu.behind word).ram[i]? =
      ((cpu.store? word).bind fun store => if store.1.toNat = i then some store.2 else none).or
        cpu.ram[i]? := by
  unfold store?
  split
  · next writes =>
    simp only [Bool.and_eq_true] at writes
    by_cases here : cpu.a.toNat = i
    · subst here
      have there : cpu.a.toNat < cpu.ram.size := by
        simp only [Blocked, Word.usesCell, writes, Bool.or_true, Bool.and_true, true_and] at free
        omega
      simp [behind, writes, there]
    · simp [here, cpu.behind_ram_other word (Ne.symm here)]
  · next keeps =>
    have same : (cpu.behind word).ram = cpu.ram := by
      apply Decidable.byContradiction
      intro changed
      simp [writes_of_behind_ram_ne changed] at keeps
    simp [same]

theorem tick_counter {cpu behind : Cpu} (small : cpu.rom.size ≤ 32768)
    (ticked : cpu.tick = (behind, none)) :
    ∃ word, cpu.rom[cpu.pc.toNat]? = some word ∧
      if cpu.jumps word then behind.pc = cpu.a
      else behind.pc.toNat = cpu.pc.toNat + 1 ∧ behind.pc.toNat ≤ 32768 := by
  have inside : cpu.pc.toNat < cpu.rom.size := by
    apply Nat.lt_of_not_le
    intro outside
    rw [tick_eq, if_pos outside] at ticked
    cases congrArg Prod.snd ticked
  have found := Array.getElem?_eq_getElem inside
  refine ⟨_, found, ?_⟩
  rw [tick_word found] at ticked
  generalize cpu.rom[cpu.pc.toNat] = word at ticked ⊢
  split at ticked
  · cases congrArg Prod.snd ticked
  · cases ticked
    show if cpu.jumps word then (cpu.behind word).pc = cpu.a else _
    rw [behind_pc]
    cases cpu.jumps word with
    | true => simp
    | false =>
      -- The counter is below the size of the program memory, so adding one does not wrap.
      have next : (cpu.pc + 1#16).toNat = cpu.pc.toNat + 1 := by
        rw [BitVec.toNat_add, BitVec.toNat_ofNat]
        omega
      simp only [Bool.false_eq_true, if_false]
      show (cpu.pc + 1#16).toNat = _ ∧ (cpu.pc + 1#16).toNat ≤ _
      omega

/-! ## One action -/

/-- All that an action can do. -/
inductive Effect (cpu : Cpu) : Action → Cpu × Option Fault → Prop
  -- Whatever fails leaves the processor as it was.
  | fails {action fault} : Effect cpu action (cpu, some fault)
  | loads {words} : words.length ≤ 32768 →
      Effect cpu (.load words) ({ cpu with rom := words.toArray }, none)
  | resets : Effect cpu .reset (cpu.reset, none)
  | setsA {value} : Effect cpu (.setA value) ({ cpu with a := value }, none)
  | setsD {value} : Effect cpu (.setD value) ({ cpu with d := value }, none)
  | setsPc {value} : Effect cpu (.setPc value) ({ cpu with pc := value }, none)
  | peeks {address} : Effect cpu (.peek address) (cpu, none)
  | pokes {address value} : address.toNat < cpu.ram.size →
      Effect cpu (.poke address value)
        ({ cpu with ram := cpu.ram.setIfInBounds address.toNat value }, none)
  | fetches : Effect cpu .fetch (cpu, none)
  | executes {word} : ¬ cpu.Blocked word → Effect cpu (.execute word) (cpu.behind word, none)
  | ticks {word} : cpu.rom[cpu.pc.toNat]? = some word → ¬ cpu.Blocked word →
      Effect cpu .tick ({ cpu.behind word with ticks := cpu.ticks + 1 }, none)

theorem perform_effect (cpu : Cpu) (action : Action) : Effect cpu action (cpu.perform action) := by
  cases action with
  | load words =>
    rw [perform, load_eq]
    split
    · exact .fails
    · next short => exact .loads (by omega)
  | reset => exact .resets
  | setA value => exact .setsA
  | setD value => exact .setsD
  | setPc value => exact .setsPc
  | peek address =>
    rw [perform]
    cases cpu.peek address with
    | error fault => exact .fails
    | ok value => exact .peeks
  | poke address value =>
    rw [perform, poke_eq]
    split
    · exact .fails
    · next there => exact .pokes (by omega)
  | fetch =>
    rw [perform]
    cases cpu.fetch with
    | error fault => exact .fails
    | ok word => exact .fetches
  | execute word =>
    rw [perform, execute_eq]
    split
    · exact .fails
    · next free => exact .executes free
  | tick =>
    rw [perform]
    cases found : cpu.rom[cpu.pc.toNat]? with
    | none =>
      rw [tick_eq, if_pos (Array.getElem?_eq_none_iff.mp found)]
      exact .fails
    | some word =>
      rw [tick_word found]
      split
      · exact .fails
      · next free => exact .ticks found free

section

variable {cpu behind : Cpu} {action : Action} {fault : Option Fault}
  (effect : Effect cpu action (behind, fault))

include effect

theorem Effect.ram_size : behind.ram.size = cpu.ram.size := by
  cases effect with
  | pokes => simp
  | executes | ticks => exact cpu.behind_ram_size _
  | _ => rfl

theorem Effect.cell (i : Nat) :
    behind.ram[i]? = (Event.stored? i ⟨cpu, action, fault⟩).or cpu.ram[i]? := by
  cases effect with
  | @pokes address value there =>
    by_cases here : address.toNat = i
    · subst here
      simp [Event.stored?, Event.store?, there]
    · simp [Event.stored?, Event.store?, here]
  | executes free => exact behind_cell free i
  | ticks found free => simp [Event.stored?, Event.store?, found, behind_cell free]
  | _ => simp [Event.stored?, Event.store?, reset]

theorem Effect.rom :
    behind.rom = ((Event.loaded? ⟨cpu, action, fault⟩).map List.toArray).getD cpu.rom := by
  cases effect with
  | executes | ticks => exact cpu.behind_rom _
  | _ => rfl

theorem Effect.rom_size (small : cpu.rom.size ≤ 32768) : behind.rom.size ≤ 32768 := by
  cases effect with
  | loads short => exact short
  | executes | ticks => simpa using small
  | _ => exact small

theorem Effect.counts :
    behind.ticks =
      if Event.isReset ⟨cpu, action, fault⟩ then 0
      else cpu.ticks + if Event.isTick ⟨cpu, action, fault⟩ then 1 else 0 := by
  cases effect with
  | executes => exact cpu.behind_ticks _
  | _ => rfl

end

/-! ## Histories -/

theorem explained_new (size : Nat) : Explained size ⟨Cpu.new size, []⟩ where
  ramSize := by simp [Cpu.new]
  rom := rfl
  romSize := by simp [Cpu.new]
  ticks := rfl
  cells i bound := by simp [Cpu.new, bound]
  counter behind ticked := tick_counter (by simp [Cpu.new]) ticked

theorem Explained.step {size : Nat} {r : Record} (explained : Explained size r) (action : Action) :
    Explained size (r.step action) := by
  -- From here on only the effect of the action counts, not how it came about.
  have effect := r.cpu.perform_effect action
  rw [Record.step]
  generalize r.cpu.perform action = result at effect ⊢
  obtain ⟨behind, fault⟩ := result
  dsimp only
  have small := effect.rom_size explained.romSize
  refine ⟨effect.ram_size.trans explained.ramSize, ?_, small, ?_, fun i bound => ?_,
    fun _ ticked => tick_counter small ticked⟩
  · rw [effect.rom, explained.rom, List.findSome?_cons]
    cases Event.loaded? ⟨r.cpu, action, fault⟩ <;> rfl
  · -- A reset cuts off the older events; any other event stands before them.
    rw [effect.counts, explained.ticks, List.takeWhile_cons]
    cases Event.isReset ⟨r.cpu, action, fault⟩ with
    | true => rfl
    | false => simp [List.countP_cons]
  · rw [effect.cell, explained.cells i bound, List.findSome?_cons]
    cases Event.stored? i ⟨r.cpu, action, fault⟩ <;> rfl

theorem Explained.run {size : Nat} {r : Record} (explained : Explained size r) (actions : List Action) :
    Explained size (actions.foldl Record.step r) := by
  induction actions generalizing r with
  | nil => exact explained
  | cons action _ ih => exact ih (explained.step action)

/-- The state of a processor follows from its history.  Whatever is done to a new processor, in whatever
order, and whether it succeeds or fails: the data memory keeps its size and each cell holds what was
stored there last, the program memory holds the last program that was loaded, the tick counter counts
the ticks since the last reset, and the program counter never wraps at a tick. -/
theorem history_explains_state (size : Nat) (actions : List Action) :
    Explained size (record size actions) :=
  (explained_new size).run actions

end Cpu

end HackMachine
