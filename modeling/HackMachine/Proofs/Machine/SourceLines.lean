import HackMachine.Proofs.Machine.Faults
import HackMachine.Proofs.Program.Resolution
import HackMachine.Proofs.Source.CodeLines

/-! # Runtime errors name their source line

An emulator that `Runs` a program holds its words in the program memory, whatever the registers and the
data memory hold.  Every operation keeps that (`Runs.perform`), so in every state of a session the line
of the program counter is the source line of the instruction there (`Runs.lineNo_eq`), and a failure
names that line, the word that failed and the address that it could not reach (`Runs.tick_error`).
-/

namespace HackMachine

/-! ## Finding an opcode -/

namespace Program

variable {opcodes : List Opcode} (ordered : opcodes.Pairwise (·.ip < ·.ip))

include ordered

theorem ip_lt_of_lt {i j : Nat} {op op' : Opcode} (found : opcodes[i]? = some op)
    (found' : opcodes[j]? = some op') (before : i < j) : op.ip < op'.ip := by
  obtain ⟨bound, rfl⟩ := List.getElem?_eq_some_iff.mp found
  obtain ⟨bound', rfl⟩ := List.getElem?_eq_some_iff.mp found'
  exact List.pairwise_iff_getElem.mp ordered i j bound bound' before

/-- The search ends where the opcodes below the address end, if they end between its two bounds. -/
theorem search_splits {ip : Int} {low high : Nat} (bounds : low ≤ high)
    (left : ∀ j op, opcodes[j]? = some op → j < low → op.ip < ip)
    (right : ∀ j op, opcodes[j]? = some op → high ≤ j → ip ≤ op.ip) :
    ∀ j op, opcodes[j]? = some op → (op.ip < ip ↔ j < search opcodes.toArray ip low high) := by
  fun_induction search opcodes.toArray ip low high with
  | case1 low high inside middle below ih =>
    -- What is before the middle is before an opcode below the address.
    rw [List.getElem?_toArray, Option.any_eq_true] at below
    obtain ⟨mid, found, below⟩ := below
    refine ih (by omega) (fun j op listed before => ?_) right
    rcases Nat.lt_or_eq_of_le (Nat.lt_succ_iff.mp before) with before | rfl
    · exact Int.lt_trans (ip_lt_of_lt ordered listed found before) (of_decide_eq_true below)
    · obtain rfl := Option.some.inj (listed.symm.trans found)
      exact of_decide_eq_true below
  | case2 low high inside middle above ih =>
    refine ih (by omega) left (fun j op listed behind => ?_)
    obtain ⟨bound, -⟩ := List.getElem?_eq_some_iff.mp listed
    have found := List.getElem?_eq_getElem (Nat.lt_of_le_of_lt behind bound)
    rw [List.getElem?_toArray, found, Option.any_some, decide_eq_true_iff, Int.not_lt] at above
    rcases Nat.lt_or_eq_of_le behind with behind | same
    · exact Int.le_trans above (Int.le_of_lt (ip_lt_of_lt ordered found listed behind))
    · rw [← same, found] at listed
      obtain rfl := Option.some.inj listed
      exact above
  | case3 low high outside =>
    intro j op listed
    obtain rfl : low = high := Nat.le_antisymm bounds (Nat.not_lt.mp outside)
    refine ⟨fun below => ?_, left j op listed⟩
    by_contra behind
    exact Int.not_lt.mpr (right j op listed (Nat.not_lt.mp behind)) below

/-- The opcode at an address is the one with that address. -/
theorem at?_eq_some_iff {symbols : Symbols} {ip : Int} {op : Opcode} :
    at? ⟨opcodes, symbols⟩ ip = some op ↔ op ∈ opcodes ∧ op.ip = ip := by
  have splits : ∀ j op, opcodes[j]? = some op →
      (op.ip < ip ↔ j < search opcodes.toArray ip 0 opcodes.toArray.size) := by
    apply search_splits ordered (Nat.zero_le _) (fun j _ _ before => absurd before (Nat.not_lt_zero j))
    intro j op listed behind
    obtain ⟨bound, -⟩ := List.getElem?_eq_some_iff.mp listed
    exact absurd bound (Nat.not_lt.mpr behind)
  simp only [at?, List.getElem?_toArray, Option.filter_eq_some_iff, beq_iff_eq]
  generalize search opcodes.toArray ip 0 opcodes.toArray.size = place at splits
  constructor
  · intro found
    exact ⟨List.mem_of_getElem? found.1, found.2⟩
  · intro ⟨member, here⟩
    obtain ⟨j, listed⟩ := List.mem_iff_getElem?.mp member
    -- The opcode is not below the address, and one before it and behind the split would not be either.
    have behind : place ≤ j := by
      by_contra before
      have below := (splits j op listed).mpr (Nat.not_le.mp before)
      omega
    obtain ⟨bound, -⟩ := List.getElem?_eq_some_iff.mp listed
    have first := List.getElem?_eq_getElem (Nat.lt_of_le_of_lt behind bound)
    have above : ¬ opcodes[place].ip < ip := fun below =>
      Nat.lt_irrefl place ((splits place _ first).mp below)
    rcases Nat.lt_or_eq_of_le behind with behind | rfl
    · have later := ip_lt_of_lt ordered first listed behind
      omega
    · exact ⟨listed, here⟩

end Program

/-! ## Lines of addresses -/

theorem directOpcodes_ordered (symbols : Symbols) (items : List Item) :
    (directOpcodes symbols items).Pairwise (·.ip < ·.ip) := by
  rw [List.pairwise_iff_getElem]
  intro i j bound bound' before
  rw [directOpcodes_ip (List.getElem?_eq_getElem bound),
    directOpcodes_ip (List.getElem?_eq_getElem bound')]
  exact Int.ofNat_lt.mpr before

theorem at?_direct (symbols : Symbols) (items : List Item) (i : Nat) :
    Program.at? ⟨directOpcodes symbols items, symbols⟩ i = (directOpcodes symbols items)[i]? := by
  apply Option.ext
  intro op
  rw [Program.at?_eq_some_iff (directOpcodes_ordered symbols items)]
  constructor
  · intro found
    obtain ⟨member, here⟩ := found
    obtain ⟨j, listed⟩ := List.mem_iff_getElem?.mp member
    rw [directOpcodes_ip listed, Int.natCast_inj] at here
    exact here ▸ listed
  · intro listed
    exact ⟨List.mem_of_getElem? listed, directOpcodes_ip listed⟩

/-- An address has the line of its instruction, and none has line zero. -/
theorem lineAt_direct (symbols : Symbols) (items : List Item) (i : Nat) :
    Program.lineAt ⟨directOpcodes symbols items, symbols⟩ i =
      ((((instructions items).map (·.lineNo))[i]?).getD 0 : Nat) := by
  rw [Program.lineAt, at?_direct, getElem?_directOpcodes, List.getElem?_map]
  cases (instructions items)[i]? <;> rfl

namespace Emulator

/-! ## Sessions -/

/-- What can be done with an emulator between the start of a program and a failure. -/
inductive Operation where
  | tick
  | run (fuel : Nat) (limit : Int)
  | poke (address value : Word)
  | registers (a d pc : Word)

/-- The emulator behind an operation. -/
def perform (e : Emulator) : Operation → Emulator
  | .tick => e.tick.1
  | .run fuel limit => (e.run fuel limit).1
  | .poke address value => { e with cpu := (e.cpu.poke address value).1 }
  | .registers a d pc => { e with cpu := { e.cpu with a := a, d := d, pc := pc } }

/-- The program is in the program memory. -/
structure Runs (program : Program) (e : Emulator) : Prop where
  held : e.program = program
  rom : e.cpu.rom = program.words.toArray

/-- The error of an instruction that needs a cell at an address without one.  `numbers` are the source
lines of the instructions. -/
def ErrorAt (numbers : List Nat) (words : List Word) (e : Emulator) (error : RuntimeError) : Prop :=
  ∃ number word, numbers[e.cpu.pc.toNat]? = some number ∧ words[e.cpu.pc.toNat]? = some word ∧
    error = ⟨number, { cause := .memoryAddress, address := some e.cpu.a, opcode := some word }⟩

/-- The current line and the line of every error are those of the instruction at the program counter. -/
structure NamesLines (numbers : List Nat) (words : List Word) (e : Emulator) : Prop where
  lineNo : e.lineNo = ((numbers[e.cpu.pc.toNat]?).getD 0 : Nat)
  tick : ∀ error, e.tick.2 = .error error → ErrorAt numbers words e error
  run : ∀ fuel limit error, (e.run fuel limit).2 = some (.error error) →
    ErrorAt numbers words (e.run fuel limit).1 error

theorem runs_of_reset {e : Emulator} (fits : e.program.words.length ≤ 32768) :
    e.reset.2 = none ∧ Runs e.program e.reset.1 := by
  have loaded := e.cpu.load_eq e.program.words
  rw [if_neg (by omega)] at loaded
  rw [reset, loaded]
  exact ⟨rfl, rfl, rfl⟩

variable {program : Program} {e : Emulator}

theorem Runs.tick (runs : Runs program e) : Runs program e.tick.1 := by
  obtain ⟨-, ticked⟩ | ⟨_, -, -, ticked⟩ | ⟨cpu, -, kept, ticked⟩ := e.tick_cases
  · rw [ticked]
    exact runs
  · rw [ticked]
    exact runs
  · rw [ticked]
    exact ⟨runs.held, kept.trans runs.rom⟩

theorem Runs.runFor (runs : Runs program e) (limit : Nat) : Runs program (e.runFor limit).1 := by
  induction limit generalizing e with
  | zero => exact runs
  | succ limit ih =>
    have next := runs.tick
    rw [Emulator.runFor]
    split
    · next behind ticked =>
      rw [ticked] at next
      exact ih next
    · next behind result _ ticked =>
      rw [ticked] at next
      exact next

-- A run with a limit and one that waits for the end are both a number of ticks.
theorem exists_runFor (e : Emulator) (fuel : Nat) (limit : Int) :
    ∃ n, (e.run fuel limit).1 = (e.runFor n).1 ∧
      ∀ result, (e.run fuel limit).2 = some result → (e.runFor n).2 = result := by
  unfold run
  split
  · exact ⟨limit.toNat, rfl, fun result same => Option.some.inj same⟩
  · refine ⟨fuel, ?_⟩
    split
    · next behind ran =>
      rw [ran]
      exact ⟨rfl, nofun⟩
    · next behind result _ ran =>
      rw [ran]
      exact ⟨rfl, fun other same => Option.some.inj same⟩

theorem Runs.perform (runs : Runs program e) (operation : Operation) :
    Runs program (e.perform operation) := by
  cases operation with
  | tick => exact runs.tick
  | run fuel limit =>
    obtain ⟨n, same, -⟩ := e.exists_runFor fuel limit
    simp only [Emulator.perform, same]
    exact runs.runFor n
  | poke address value =>
    refine ⟨runs.held, ?_⟩
    simp only [Emulator.perform, Cpu.poke_eq]
    split
    · exact runs.rom
    · exact runs.rom
  | registers a d pc => exact ⟨runs.held, runs.rom⟩

theorem Runs.session (runs : Runs program e) (operations : List Operation) :
    Runs program (operations.foldl Emulator.perform e) := by
  induction operations generalizing e with
  | nil => exact runs
  | cons operation _ ih => exact ih (runs.perform operation)

/-! ## Lines and errors -/

section

variable {symbols : Symbols} {items : List Item}
  (runs : Runs ⟨directOpcodes symbols items, symbols⟩ e)

include runs

theorem Runs.lineNo_eq :
    e.lineNo = ((((instructions items).map (·.lineNo))[e.cpu.pc.toNat]?).getD 0 : Nat) := by
  rw [lineNo, runs.held, lineAt_direct]

theorem Runs.tick_error {error : RuntimeError} (failed : e.tick.2 = .error error) :
    ErrorAt ((instructions items).map (·.lineNo))
      (Program.words ⟨directOpcodes symbols items, symbols⟩) e error := by
  obtain ⟨-, ticked⟩ | ⟨fault, inside, cpuTicked, ticked⟩ | ⟨_, -, -, ticked⟩ := e.tick_cases
  · rw [ticked] at failed
    cases failed
  · rw [ticked, Except.error.injEq] at failed
    subst failed
    have bound : e.cpu.pc.toNat < e.cpu.rom.size := by simpa [Cpu.outside] using inside
    have found := Array.getElem?_eq_getElem bound
    generalize e.cpu.rom[e.cpu.pc.toNat] = word at found
    -- The counter is inside, so the instruction there is what failed.
    rw [Cpu.tick_word found] at cpuTicked
    by_cases blocked : e.cpu.Blocked word
    · rw [if_pos blocked] at cpuTicked
      cases cpuTicked
      rw [runs.rom, List.getElem?_toArray] at found
      have listed := found
      rw [words_direct, List.getElem?_map, Option.map_eq_some_iff] at listed
      obtain ⟨item, listed, -⟩ := listed
      have numbered : ((instructions items).map (·.lineNo))[e.cpu.pc.toNat]? = some item.lineNo := by
        rw [List.getElem?_map, listed, Option.map_some]
      refine ⟨item.lineNo, word, numbered, found, ?_⟩
      rw [runs.lineNo_eq, numbered, Option.getD_some]
    · rw [if_neg blocked] at cpuTicked
      cases congrArg Prod.snd cpuTicked
  · rw [ticked] at failed
    cases failed

theorem Runs.runFor_error {limit : Nat} {error : RuntimeError}
    (failed : (e.runFor limit).2 = .error error) :
    ErrorAt ((instructions items).map (·.lineNo))
      (Program.words ⟨directOpcodes symbols items, symbols⟩) (e.runFor limit).1 error := by
  induction limit generalizing e with
  | zero => cases failed
  | succ limit ih =>
    have next := runs.tick
    have unchanged := @tick_unchanged e
    have here := @runs.tick_error
    rw [Emulator.runFor] at failed ⊢
    rcases ticked : e.tick with ⟨behind, other | done⟩
    · -- The tick that fails leaves the emulator as it was.
      simp only [ticked] at failed unchanged here ⊢
      rw [unchanged failed]
      exact here failed
    · cases done with
      | false =>
        simp only [ticked] at failed next ⊢
        exact ih next failed
      | true =>
        simp only [ticked] at failed
        cases failed

theorem Runs.namesLines :
    NamesLines ((instructions items).map (·.lineNo))
      (Program.words ⟨directOpcodes symbols items, symbols⟩) e where
  lineNo := runs.lineNo_eq
  tick _ failed := runs.tick_error failed
  run fuel limit error failed := by
    obtain ⟨n, same, result⟩ := e.exists_runFor fuel limit
    rw [same]
    exact runs.runFor_error (result _ failed)

end

/-- Runtime errors name the right source line.  Once an assembled program that fits is loaded, in every
state of every session the current line is that of the instruction at the program counter, zero outside
of the program, and every error is that of a memory access by this instruction, at this line. -/
theorem runtime_errors_name_their_line [Constant.Evaluator] {source : Bytes} {program : Program}
    (assembled : assemble source = .ok program) (fits : program.words.length ≤ 32768) :
    ∃ numbers, instructionLines source = .ok numbers ∧ numbers.length = program.words.length ∧
      ∀ e : Emulator, e.program = program → e.reset.2 = none ∧
        ∀ operations : List Operation,
          NamesLines numbers program.words (operations.foldl perform e.reset.1) := by
  obtain ⟨items, parsed, -, rfl⟩ := assemble_eq_ok_iff.mp assembled
  refine ⟨_, instructionLines_of_parse parsed, ?_, fun e held => ?_⟩
  · rw [words_direct, List.length_map, List.length_map]
  · obtain ⟨loaded, runs⟩ := runs_of_reset (e := e) (held ▸ fits)
    rw [held] at runs
    exact ⟨loaded, fun operations => (runs.session operations).namesLines⟩

/-- The store fails on a machine with two cells. -/
theorem runtime_errors_name_their_line_store :
    ∃ e : Emulator, assemble (ascii "\n// fill\ntop:\nA := 5\n*A = D") = .ok e.program ∧
      (e.reset.1.perform .tick).tick.2 =
        .error ⟨5, { cause := .memoryAddress, address := some 5#16, opcode := some 0xe308#16 }⟩ ∧
      NamesLines [4, 5] [0x0005#16, 0xe308#16] (e.reset.1.perform .tick) := by
  have assembled : assemble (ascii "\n// fill\ntop:\nA := 5\n*A = D") =
      .ok ⟨[⟨4, 0, ascii "A := 5", 0x0005#16, none⟩, ⟨5, 1, ascii "*A = D", 0xe308#16, none⟩],
        [(ascii "top", 0)]⟩ := by
    decide +kernel
  have lines : instructionLines (ascii "\n// fill\ntop:\nA := 5\n*A = D") = .ok [4, 5] := by
    decide +kernel
  obtain ⟨numbers, listed, -, all⟩ := runtime_errors_name_their_line assembled (by decide)
  obtain rfl : [4, 5] = numbers := Except.ok.inj (lines.symm.trans listed)
  refine ⟨⟨Cpu.new 2, _⟩, assembled, by decide +kernel, ?_⟩
  exact (all ⟨Cpu.new 2, _⟩ rfl).2 [.tick]

end Emulator

end HackMachine
