import HackMachine.Proofs.Machine.BoundedRun
import HackMachine.Proofs.Machine.Idle
import HackMachine.Proofs.Machine.SourceLines

/-! # Programs without jumps

A program in which no instruction jumps goes through its instructions one by one.  The invariant is that
the program counter equals the number of ticks (`Reached`): a tick moves both by one, reports the end
exactly behind the last instruction, or is stuck at an instruction that finds no memory cell
(`Reached.tick`).  So every run of such a program returns, with no limit as well as with one that allows
a tick for each instruction (`Reached.runs_through`, `Reached.runs_until`).
-/

namespace HackMachine

/-- No computation jumps. -/
def JumpFree (items : List Item) : Prop :=
  ∀ item ∈ items, ∀ c pos, item.statement = .compute c pos → c.jump = .never

/-- The statement computes with the memory cell or stores into it. -/
def Statement.usesCell : Statement → Bool
  | .compute c _ => c.expr.usesMemory || c.registers.contains .m
  | _ => false

/-- Behind the word comes the next one. -/
def Word.GoesOn (word : Word) : Prop := Word.isCompute word = true → Word.jump word = .never

/-! ## Words of instructions -/

section

variable {symbols : Symbols} {item : Item} (encodes : item.Encodes symbols)

include encodes

/-- Only computations have compute words. -/
theorem compute_of_isCompute (slot : item.statement.isInstruction = true)
    (computes : Word.isCompute (directWord symbols item.statement) = true) :
    ∃ c pos, item.statement = .compute c pos := by
  obtain ⟨fits, resolved⟩ := encodes
  obtain ⟨lineNo, line, statement⟩ := item
  cases statement with
  | label name pos => cases slot
  | address target targetPos pos =>
    rw [isCompute_eq_msb] at computes
    cases target with
    | value value =>
      have clear : (lowWord value).msb = false := msb_lowWord fits.1 fits.2
      rw [directWord, clear] at computes
      cases computes
    | label name =>
      obtain ⟨address, found, low, high⟩ := resolved name rfl
      rw [directWord, found, Option.getD_some, msb_lowWord low high] at computes
      cases computes
  | compute c pos => exact ⟨c, pos, rfl⟩

theorem usesCell_directWord (slot : item.statement.isInstruction = true) :
    Word.usesCell (directWord symbols item.statement) = item.statement.usesCell := by
  cases computes : Word.isCompute (directWord symbols item.statement) with
  | true =>
    obtain ⟨c, pos, same⟩ := compute_of_isCompute encodes slot computes
    simp [same, Word.usesCell, directWord, Statement.usesCell]
  | false =>
    rw [Word.usesCell, computes, Bool.false_and]
    cases same : item.statement with
    | label | address => rfl
    | compute c pos => simp [same, directWord] at computes

end

theorem goesOn_of_jumpFree {items : List Item} (valid : Valid items) (free : JumpFree items) {word : Word}
    (member : word ∈ Program.words ⟨directOpcodes (index items) items, index items⟩) :
    Word.GoesOn word := by
  intro computes
  rw [words_direct] at member
  obtain ⟨item, listed, rfl⟩ := List.mem_map.mp member
  obtain ⟨listed, slot⟩ := List.mem_filter.mp listed
  obtain ⟨c, pos, same⟩ := compute_of_isCompute (valid.encodes listed) slot computes
  rw [same, directWord, jump_encodeCompute]
  exact free item listed c pos same

/-- The counter has room for one more, since the program memory ends far below its last value. -/
theorem Cpu.toNat_behind_pc {word : Word} (goesOn : Word.GoesOn word) {cpu : Cpu}
    (small : cpu.pc.toNat < 32768) : (cpu.behind word).pc.toNat = cpu.pc.toNat + 1 := by
  have next : (cpu.behind word).pc = cpu.pc + 1 := by
    unfold behind
    split
    · next computes =>
      have stays : (Word.jump word).taken (Status.of (cpu.output word)) = false := by
        rw [goesOn computes]
        rfl
      simp [stays]
    · rfl
  have one : (1 : Word).toNat = 1 := rfl
  rw [next, BitVec.toNat_add, one]
  omega

namespace Emulator

/-- The emulator behind `n` of its ticks. -/
def afterTicks (e : Emulator) : Nat → Emulator
  | 0 => e
  | n + 1 => e.tick.1.afterTicks n

theorem afterTicks_succ (e : Emulator) (n : Nat) : e.afterTicks (n + 1) = (e.afterTicks n).tick.1 := by
  induction n generalizing e with
  | zero => rfl
  | succ n ih => exact ih e.tick.1

/-- A program in which every word goes on has no closing loop. -/
theorem idle_of_goesOn {e : Emulator} (goesOn : ∀ word ∈ e.cpu.rom.toList, Word.GoesOn word) (ip : Word) :
    e.idle ip = false := by
  unfold idle
  split
  · next load jump _ found =>
    have member : jump ∈ e.cpu.rom.toList := Array.mem_toList_iff.mpr (Array.mem_of_getElem? found)
    have wanders : idleJump jump = false := by
      rw [Bool.eq_false_iff]
      intro idles
      obtain ⟨computes, -, -, -, always⟩ := Cpu.idleJump_iff.mp idles
      rw [goesOn jump member computes] at always
      cases always
    rw [wanders, Bool.and_false, Bool.and_false]
  · rw [Bool.and_false]

/-! ## One tick -/

/-- The emulator runs the program and has come to its instruction `j` in as many ticks. -/
structure Reached (program : Program) (j : Nat) (e : Emulator) : Prop where
  runs : Runs program e
  pc : e.cpu.pc.toNat = j
  ticks : e.cpu.ticks = j

variable {program : Program} {e : Emulator} {j : Nat}

/-- A tick is stuck, or it goes to the next instruction and reports whether that is the end. -/
theorem Reached.tick (reached : Reached program j e) (goesOn : ∀ word ∈ program.words, Word.GoesOn word)
    (fits : program.words.length ≤ 32768) {word : Word} (found : program.words[j]? = some word) :
    (e.cpu.Blocked word ∧ ∃ error, e.tick = (e, .error error)) ∨
    (¬ e.cpu.Blocked word ∧ Reached program (j + 1) e.tick.1 ∧
      e.tick.2 = .ok (decide (j + 1 = program.words.length))) := by
  obtain ⟨runs, rfl, ticks⟩ := reached
  obtain ⟨inside, -⟩ := List.getElem?_eq_some_iff.mp found
  have fetched : e.cpu.rom[e.cpu.pc.toNat]? = some word := by
    rw [runs.rom, List.getElem?_toArray, found]
  have cpuTicked := Cpu.tick_word fetched
  obtain ⟨outside, -⟩ | ⟨fault, -, failed, ticked⟩ | ⟨cpu, succeeded, kept, ticked⟩ := e.tick_cases
  · have beyond : e.cpu.rom.size ≤ e.cpu.pc.toNat := of_decide_eq_true outside
    rw [runs.rom, List.size_toArray] at beyond
    omega
  · by_cases blocked : e.cpu.Blocked word
    · exact .inl ⟨blocked, _, ticked⟩
    · rw [failed, if_neg blocked] at cpuTicked
      cases congrArg Prod.snd cpuTicked
  · by_cases blocked : e.cpu.Blocked word
    · rw [succeeded, if_pos blocked] at cpuTicked
      cases congrArg Prod.snd cpuTicked
    · rw [succeeded, if_neg blocked] at cpuTicked
      have same : cpu = { e.cpu.behind word with ticks := e.cpu.ticks + 1 } := congrArg Prod.fst cpuTicked
      have next : cpu.pc.toNat = e.cpu.pc.toNat + 1 := by
        rw [same]
        exact Cpu.toNat_behind_pc (goesOn word (List.mem_of_getElem? found)) (by omega)
      have rom : cpu.rom = program.words.toArray := kept.trans runs.rom
      have loopless : idle ⟨cpu, e.program⟩ cpu.pc = false := by
        apply idle_of_goesOn
        rw [rom]
        exact goesOn
      refine .inr ⟨blocked, ?_, ?_⟩
      · rw [ticked]
        exact ⟨⟨runs.held, rom⟩, next, by rw [same, ticks]⟩
      · rw [ticked, loopless, Bool.or_false, Cpu.outside, rom, next, List.size_toArray, Except.ok.injEq,
          decide_eq_decide]
        omega

/-! ## Any number of ticks -/

section

variable {start : Emulator} {m : Nat} (begins : Reached program 0 start)
  (goesOn : ∀ word ∈ program.words, Word.GoesOn word) (fits : program.words.length ≤ 32768)
  (long : m ≤ program.words.length)
  (free : ∀ j < m, ∀ word, program.words[j]? = some word → ¬ (start.afterTicks j).cpu.Blocked word)

include begins goesOn fits long free

/-- As long as no instruction is stuck, the emulator comes to one more with each tick. -/
theorem Reached.afterTicks : Reached program m (start.afterTicks m) := by
  induction m with
  | zero => exact begins
  | succ m ih =>
    have reached := ih (by omega) fun j early => free j (by omega)
    have found := List.getElem?_eq_getElem (Nat.lt_of_succ_le long)
    obtain ⟨blocked, -⟩ | ⟨-, next, -⟩ := reached.tick goesOn fits found
    · exact absurd blocked (free m (by omega) _ found)
    · rw [afterTicks_succ]
      exact next

theorem Reached.reports {j : Nat} (early : j < m) :
    (start.afterTicks j).tick.2 = .ok (decide (j + 1 = program.words.length)) := by
  have reached : Reached program j (start.afterTicks j) :=
    begins.afterTicks goesOn fits (by omega) fun i earlier => free i (by omega)
  have found := List.getElem?_eq_getElem (Nat.lt_of_lt_of_le early long)
  obtain ⟨blocked, -⟩ | ⟨-, -, reported⟩ := reached.tick goesOn fits found
  · exact absurd blocked (free j early _ found)
  · exact reported

end

/-- A run ends with the first tick that does more than go on. -/
theorem runFor_of_ticks {start : Emulator} {k limit : Nat}
    (goes : ∀ i < k, (start.afterTicks i).tick.2 = .ok false)
    (ended : (start.afterTicks k).tick.2 ≠ .ok false) (enough : k < limit) :
    start.runFor limit = (start.afterTicks k).tick := by
  induction k generalizing start limit with
  | zero =>
    obtain ⟨limit, rfl⟩ : ∃ n, limit = n + 1 := ⟨limit - 1, by omega⟩
    rw [runFor]
    split
    · next ticked =>
      exact absurd (congrArg Prod.snd ticked) ended
    · next ticked => exact ticked.symm
  | succ k ih =>
    obtain ⟨limit, rfl⟩ : ∃ n, limit = n + 1 := ⟨limit - 1, by omega⟩
    have first : start.tick = (start.tick.1, .ok false) := Prod.ext rfl (goes 0 (by omega))
    rw [runFor, first]
    exact ih (fun i early => goes (i + 1) (by omega)) ended (by omega)

/-! ## Runs -/

/-- The limit allows `n` ticks, or there is none and the fuel allows them. -/
def Allows (fuel : Nat) (limit : Int) (n : Nat) : Prop := limit ≤ 0 ∧ n ≤ fuel ∨ n ≤ limit

/-- A run from `start` through `n` instructions makes `m` steps, one instruction each, and ends with
`result`. -/
structure EndsAfter (start : Emulator) (n m : Nat) (result : Except RuntimeError Bool) : Prop where
  /-- Before every tick the program counter is the number of ticks, and so it is at the end. -/
  path : ∀ j ≤ m, (start.afterTicks j).cpu.pc.toNat = j ∧ (start.afterTicks j).cpu.ticks = j
  /-- No tick but the last one of the program reports that it is done. -/
  reports : ∀ j < m, (start.afterTicks j).tick.2 = .ok (decide (j + 1 = n))
  empty : n = 0 → start.tick.2 = .ok true
  returns : ∀ fuel limit, Allows fuel limit (max 1 n) →
    start.run fuel limit = (start.afterTicks m, some result)

/-- The instruction with number `k` uses the memory cell, and there is none at `A`. -/
structure StuckAt (items : List Item) (k : Nat) (e : Emulator) (item : Item) : Prop where
  found : (instructions items)[k]? = some item
  uses : item.statement.usesCell = true
  outside : e.cpu.ram.size ≤ e.cpu.a.toNat

theorem run_of_ticks {start : Emulator} {k n fuel : Nat} {limit : Int}
    (goes : ∀ i < k, (start.afterTicks i).tick.2 = .ok false)
    (ended : (start.afterTicks k).tick.2 ≠ .ok false) (early : k < n) (allows : Allows fuel limit n) :
    start.run fuel limit = ((start.afterTicks k).tick.1, some (start.afterTicks k).tick.2) := by
  by_cases positive : 0 < limit
  · have enough : k < limit.toNat := by
      rcases allows with ⟨unlimited, -⟩ | enough <;> omega
    rw [run_of_pos positive, runFor_of_ticks goes ended enough]
  · have enough : k < fuel := by
      rcases allows with ⟨-, enough⟩ | enough <;> omega
    exact run_of_runFor (by omega) (runFor_of_ticks goes ended enough) ended

section

variable {start : Emulator} (begins : Reached program 0 start)
  (goesOn : ∀ word ∈ program.words, Word.GoesOn word) (fits : program.words.length ≤ 32768)

include begins goesOn fits

theorem Reached.runs_through
    (free : ∀ j word, program.words[j]? = some word → ¬ (start.afterTicks j).cpu.Blocked word) :
    EndsAfter start program.words.length program.words.length (.ok true) := by
  have path : ∀ j ≤ program.words.length, Reached program j (start.afterTicks j) :=
    fun j long => begins.afterTicks goesOn fits long fun i _ => free i
  have reports : ∀ j < program.words.length,
      (start.afterTicks j).tick.2 = .ok (decide (j + 1 = program.words.length)) :=
    fun j early => begins.reports goesOn fits (Nat.le_refl _) (fun i _ => free i) early
  have nothing : program.words.length = 0 → start.tick = (start, .ok true) := by
    intro none
    have outside : start.cpu.outside = true := by
      rw [Cpu.outside, begins.runs.rom, List.size_toArray, none]
      exact decide_eq_true (Nat.zero_le _)
    rw [Emulator.tick, outside, if_pos rfl]
  refine ⟨fun j long => ⟨(path j long).pc, (path j long).ticks⟩, reports, ?_, fun fuel limit allows => ?_⟩
  · intro none
    rw [nothing none]
  · cases length : program.words.length with
    | zero =>
      have done : (start.afterTicks 0).tick = (start, .ok true) := nothing length
      rw [run_of_ticks (fun j early => absurd early (Nat.not_lt_zero j)) (by simp [done]) (by omega) allows,
        done]
      rfl
    | succ n =>
      rw [length] at reports allows
      have last : (start.afterTicks n).tick.2 = .ok true := by simpa using reports n (by omega)
      have goes : ∀ j < n, (start.afterTicks j).tick.2 = .ok false := by
        intro j early
        rw [reports j (by omega), decide_eq_false (by omega)]
      rw [run_of_ticks goes (by simp [last]) (by omega) allows, last, afterTicks_succ]

theorem Reached.runs_until {k : Nat} {word : Word} (found : program.words[k]? = some word)
    (blocked : (start.afterTicks k).cpu.Blocked word)
    (free : ∀ j < k, ∀ word, program.words[j]? = some word → ¬ (start.afterTicks j).cpu.Blocked word) :
    ∃ error, (start.afterTicks k).tick.2 = .error error ∧
      EndsAfter start program.words.length k (.error error) := by
  obtain ⟨inside, -⟩ := List.getElem?_eq_some_iff.mp found
  have path : ∀ j ≤ k, Reached program j (start.afterTicks j) :=
    fun j early => begins.afterTicks goesOn fits (by omega) fun i earlier => free i (by omega)
  have reports : ∀ j < k, (start.afterTicks j).tick.2 = .ok (decide (j + 1 = program.words.length)) :=
    fun j early => begins.reports goesOn fits (by omega) free early
  obtain ⟨-, error, ticked⟩ | ⟨unblocked, -⟩ := (path k (Nat.le_refl k)).tick goesOn fits found
  · refine ⟨error, by rw [ticked], fun j early => ⟨(path j early).pc, (path j early).ticks⟩, reports,
      fun none => by omega, fun fuel limit allows => ?_⟩
    have goes : ∀ j < k, (start.afterTicks j).tick.2 = .ok false := by
      intro j early
      rw [reports j early, decide_eq_false (by omega)]
    rw [run_of_ticks goes (by simp [ticked]) (by omega) allows, ticked]
  · exact absurd blocked unblocked

end

theorem reached_of_reset (fits : e.program.words.length ≤ 32768) :
    e.reset.2 = none ∧ Reached e.program 0 e.reset.1 := by
  obtain ⟨loaded, runs⟩ := runs_of_reset fits
  have loads := e.cpu.load_eq e.program.words
  rw [if_neg (by omega)] at loads
  refine ⟨loaded, runs, ?_, ?_⟩
  · rw [reset, loads]
    rfl
  · rw [reset, loads]
    rfl

section

variable {items : List Item} (valid : Valid items)
  (direct : program = ⟨directOpcodes (index items) items, index items⟩)

include valid direct

theorem blocked_iff_stuckAt {k : Nat} {word : Word} (found : program.words[k]? = some word) :
    e.cpu.Blocked word ↔ ∃ item, StuckAt items k e item := by
  rw [direct, words_direct, List.getElem?_map, Option.map_eq_some_iff] at found
  obtain ⟨item, listed, rfl⟩ := found
  obtain ⟨member, slot⟩ := List.mem_filter.mp (List.mem_of_getElem? listed)
  rw [Cpu.Blocked, usesCell_directWord (valid.encodes member) slot]
  constructor
  · rintro ⟨uses, outside⟩
    exact ⟨item, listed, uses, outside⟩
  · rintro ⟨other, found, uses, outside⟩
    obtain rfl : item = other := Option.some.inj (listed.symm.trans found)
    exact ⟨uses, outside⟩

/-- The run ends with the error of the first instruction that is stuck. -/
theorem Reached.ends_stuck {start : Emulator} (begins : Reached program 0 start)
    (goesOn : ∀ word ∈ program.words, Word.GoesOn word) (fits : program.words.length ≤ 32768) {k : Nat}
    {item : Item} (stuck : StuckAt items k (start.afterTicks k) item)
    (first : ∀ j < k, ¬ ∃ other, StuckAt items j (start.afterTicks j) other) :
    ∃ word, program.words[k]? = some word ∧
      EndsAfter start program.words.length k (.error ⟨item.lineNo,
        { cause := .memoryAddress, address := (start.afterTicks k).cpu.a, opcode := word }⟩) := by
  obtain ⟨word, found⟩ : ∃ word, program.words[k]? = some word := by
    rw [direct, words_direct, List.getElem?_map, stuck.found]
    exact ⟨_, rfl⟩
  have unblocked : ∀ j < k, ∀ word, program.words[j]? = some word →
      ¬ (start.afterTicks j).cpu.Blocked word :=
    fun j early word listed blocked => first j early ((blocked_iff_stuckAt valid direct listed).mp blocked)
  have blocked := (blocked_iff_stuckAt valid direct found).mpr ⟨item, stuck⟩
  obtain ⟨inside, -⟩ := List.getElem?_eq_some_iff.mp found
  obtain ⟨error, failed, ends⟩ := begins.runs_until goesOn fits found blocked unblocked
  have reached := begins.afterTicks goesOn fits (Nat.le_of_lt inside) unblocked
  -- The error is the one of the instruction at the program counter, which is `k`.
  obtain ⟨number, other, numbered, listed, rfl⟩ := (direct ▸ reached.runs).tick_error failed
  rw [reached.pc, List.getElem?_map, stuck.found, Option.map_some, Option.some.injEq] at numbered
  rw [reached.pc, ← direct] at listed
  subst numbered
  exact ⟨other, listed, ends⟩

end

/-- Programs without jumps always halt, one instruction in each tick.  Whatever the machine holds, once an
accepted program is loaded every run of it returns that has no limit or one of at least a tick for each
instruction: done behind the last instruction, or with the error of the first instruction that uses the
memory cell while `A` is outside of the memory, at the source line of that instruction. -/
theorem jump_free_programs_halt [Constant.Evaluator] {source : Bytes} {program : Program}
    {items : List Item}
    (assembled : assemble source = .ok program) (fits : program.words.length ≤ 32768)
    (parsed : parse source = .ok items) (free : JumpFree items) {e : Emulator}
    (held : e.program = program) :
    ∃ start, e.reset = (start, none) ∧
      ((∀ k item, ¬ StuckAt items k (start.afterTicks k) item) ∧
        EndsAfter start program.words.length program.words.length (.ok true) ∨
      ∃ k item word, StuckAt items k (start.afterTicks k) item ∧
        (∀ j < k, ∀ other, ¬ StuckAt items j (start.afterTicks j) other) ∧
        program.words[k]? = some word ∧
        EndsAfter start program.words.length k (.error ⟨item.lineNo,
          { cause := .memoryAddress, address := (start.afterTicks k).cpu.a, opcode := word }⟩)) := by
  obtain ⟨items', parsed', valid, direct⟩ := assemble_eq_ok_iff.mp assembled
  obtain rfl : items = items' := Except.ok.inj (parsed.symm.trans parsed')
  have goesOn : ∀ word ∈ program.words, Word.GoesOn word :=
    fun word member => goesOn_of_jumpFree valid free (direct ▸ member)
  obtain ⟨loaded, begins⟩ := reached_of_reset (e := e) (held ▸ fits)
  rw [held] at begins
  refine ⟨e.reset.1, Prod.ext rfl loaded, ?_⟩
  by_cases stuck : ∃ k item, StuckAt items k (e.reset.1.afterTicks k) item
  · obtain ⟨k, ⟨item, stuck⟩, first⟩ :
        ∃ k, (∃ item, StuckAt items k (e.reset.1.afterTicks k) item) ∧
          ∀ j < k, ¬ ∃ item, StuckAt items j (e.reset.1.afterTicks j) item := by
      classical
      exact ⟨Nat.find stuck, Nat.find_spec stuck, fun j early => Nat.find_min stuck early⟩
    obtain ⟨word, listed, ends⟩ := begins.ends_stuck valid direct goesOn fits stuck first
    exact .inr ⟨k, item, word, stuck, fun j early other stuck' => first j early ⟨other, stuck'⟩, listed, ends⟩
  · refine .inl ⟨fun k item stuck' => stuck ⟨k, item, stuck'⟩, begins.runs_through goesOn fits ?_⟩
    intro k word listed blocked
    exact stuck ⟨k, (blocked_iff_stuckAt valid direct listed).mp blocked⟩

/-- With one cell the third instruction is stuck, at the fourth line. -/
theorem jump_free_programs_halt_stuck :
    ∃ e : Emulator, assemble (ascii "A := 1\nD = A\n\n*A = D") = .ok e.program ∧ e.cpu = Cpu.new 1 ∧
      ∀ fuel limit, Allows fuel limit 3 → e.reset.1.run fuel limit = (e.reset.1.afterTicks 2,
        some (.error ⟨4, { cause := .memoryAddress, address := 1#16, opcode := 0xe308#16 }⟩)) := by
  have assembled : assemble (ascii "A := 1\nD = A\n\n*A = D") =
      .ok ⟨[⟨1, 0, ascii "A := 1", 0x0001#16, none⟩, ⟨2, 1, ascii "D = A", 0xec10#16, none⟩,
        ⟨4, 2, ascii "*A = D", 0xe308#16, none⟩], []⟩ := by
    decide +kernel
  have parsed : parse (ascii "A := 1\nD = A\n\n*A = D") =
      .ok [⟨1, ascii "A := 1", .address (.value 1) ⟨1, 6, 7⟩ ⟨1, 1, 7⟩⟩,
        ⟨2, ascii "D = A", .compute ⟨[⟨.d, ⟨2, 1, 2⟩⟩], .reg .a, ⟨2, 5, 6⟩, .never⟩ ⟨2, 1, 6⟩⟩,
        ⟨4, ascii "*A = D", .compute ⟨[⟨.m, ⟨4, 1, 3⟩⟩], .reg .d, ⟨4, 6, 7⟩, .never⟩ ⟨4, 1, 7⟩⟩] := by
    decide +kernel
  refine ⟨⟨Cpu.new 1, _⟩, assembled, rfl, ?_⟩
  obtain ⟨start, loaded, halts⟩ := jump_free_programs_halt assembled (by decide) parsed
    (by simp [JumpFree]) (e := ⟨Cpu.new 1, _⟩) rfl
  obtain rfl : _ = start := congrArg Prod.fst loaded
  obtain ⟨free, -⟩ | ⟨k, item, word, ⟨found, uses, outside⟩, first, listed, ends⟩ := halts
  · exact absurd ⟨rfl, rfl, by decide +kernel⟩ (free 2 _)
  · -- The first two instructions do not use the cell, and none behind the third is the first.
    rcases k with _ | _ | _ | k
    · cases found
      cases uses
    · cases found
      cases uses
    · cases found
      cases listed
      exact ends.returns
    · exact absurd ⟨rfl, rfl, by decide +kernel⟩ (first 2 (by omega) _)

end Emulator

end HackMachine
