import HackMachine.Proofs.Machine.Faults

/-! # A run is a number of ticks

The emulator looks at the program counter before a tick of its processor and behind it.  Inside of the
program the first look changes nothing, so a run is so many ticks of the bare processor: up to the first
one that fails, leaves the program or reaches its closing loop (`FirstStop`), or as many as the limit
allows.  `tick_of_inside` is that for one tick; `runFor_of_firstStop` and `runFor_of_unstopped` are the
two ways of a run.
-/

namespace HackMachine

namespace Cpu

/-- The processor behind `n` ticks, of which some may fail. -/
def afterTicks (cpu : Cpu) : Nat → Cpu
  | 0 => cpu
  | n + 1 => cpu.tick.1.afterTicks n

end Cpu

namespace Emulator

/-- The emulator behind `n` ticks of its bare processor. -/
def ticked (e : Emulator) (n : Nat) : Emulator := { e with cpu := e.cpu.afterTicks n }

/-- The next tick of the processor is the last of the program: it fails, or it leaves the program or
reaches the closing loop. -/
inductive Ends (e : Emulator) : Except RuntimeError Bool → Prop
  | fails {fault} : e.cpu.tick.2 = some fault → Ends e (.error ⟨e.lineNo, fault⟩)
  | leaves : e.cpu.tick.2 = none → (e.ticked 1).cpu.outside = true → Ends e (.ok true)
  | idles : e.cpu.tick.2 = none → (e.ticked 1).idle (e.ticked 1).cpu.pc = true → Ends e (.ok true)

/-- The tick with this number, counting from one, ends the program. -/
def StopsAt (e : Emulator) : Nat → Except RuntimeError Bool → Prop
  | 0, _ => False
  | n + 1, result => (e.ticked n).Ends result

structure FirstStop (e : Emulator) (k : Nat) (result : Except RuntimeError Bool) : Prop where
  stops : e.StopsAt k result
  first : ∀ j < k, ∀ other, ¬ e.StopsAt j other

/-! ## One tick -/

section

variable {e : Emulator} {k : Nat} {result other : Except RuntimeError Bool}

theorem ticked_succ (e : Emulator) (n : Nat) : e.ticked (n + 1) = (e.ticked n).ticked 1 := by
  induction n generalizing e with
  | zero => rfl
  | succ n ih => exact ih (e.ticked 1)

theorem Ends.unique (ends : e.Ends result) (ends' : e.Ends other) : result = other := by
  cases ends with
  | fails failed =>
    cases ends' with
    | fails failed' =>
      rw [failed, Option.some.injEq] at failed'
      rw [failed']
    | leaves succeeded | idles succeeded => simp [failed] at succeeded
  | leaves succeeded | idles succeeded =>
    cases ends' with
    | fails failed => simp [failed] at succeeded
    | leaves | idles => rfl

theorem ticked_one_of_fault {fault : Fault} (failed : e.cpu.tick.2 = some fault) : e.ticked 1 = e := by
  obtain ⟨_, ticked⟩ | ⟨_, ticked, -⟩ := e.cpu.tick_cases
  · simp [Emulator.ticked, Cpu.afterTicks, ticked]
  · simp [ticked] at failed

/-- Inside of the program a tick of the emulator is one of the processor, and it ends the program or
stays inside. -/
theorem tick_of_inside (inside : e.cpu.outside = false) :
    (∃ result, e.Ends result ∧ e.tick = (e.ticked 1, result)) ∨
    ((∀ result, ¬ e.Ends result) ∧ (e.ticked 1).cpu.outside = false ∧
      e.tick = (e.ticked 1, .ok false)) := by
  obtain ⟨outside, -⟩ | ⟨fault, -, failed, ticked⟩ | ⟨cpu, succeeded, -, ticked⟩ := e.tick_cases
  · simp [inside] at outside
  · have failed' : e.cpu.tick.2 = some fault := by rw [failed]
    refine .inl ⟨_, .fails failed', ?_⟩
    rw [ticked, ticked_one_of_fault failed']
  · have succeeded' : e.cpu.tick.2 = none := by rw [succeeded]
    have behind : e.ticked 1 = ⟨cpu, e.program⟩ := by
      simp [Emulator.ticked, Cpu.afterTicks, succeeded]
    cases left : cpu.outside with
    | true =>
      refine .inl ⟨_, .leaves succeeded' (by rw [behind, left]), ?_⟩
      rw [ticked, behind, left, Bool.true_or]
    | false =>
      cases looped : idle ⟨cpu, e.program⟩ cpu.pc with
      | true =>
        refine .inl ⟨_, .idles succeeded' (by rw [behind, looped]), ?_⟩
        rw [ticked, behind, looped, Bool.or_true]
      | false =>
        refine .inr ⟨fun result ends => ?_, by rw [behind, left], ?_⟩
        · cases ends with
          | fails failed => simp [succeeded'] at failed
          | leaves _ leaves => simp [behind, left] at leaves
          | idles _ idles => simp [behind, looped] at idles
        · rw [ticked, behind, left, looped]
          rfl

/-! ## Any number of ticks -/

theorem FirstStop.eq_one (first : e.FirstStop k result) (ends : e.Ends other) :
    k = 1 ∧ result = other := by
  obtain ⟨stops, least⟩ := first
  cases k with
  | zero => cases stops
  | succ n =>
    cases n with
    | zero => exact ⟨rfl, stops.unique ends⟩
    | succ n => exact absurd ends (least 1 (by omega) other)

/-- Where the first tick does not end the program, the rest of the ticks does so one tick earlier. -/
theorem FirstStop.tail (first : e.FirstStop k result) (goes : ∀ other, ¬ e.Ends other) :
    ∃ j, k = j + 1 ∧ (e.ticked 1).FirstStop j result := by
  obtain ⟨stops, least⟩ := first
  cases k with
  | zero => cases stops
  | succ n =>
    refine ⟨n, rfl, ?_, fun i early other stops' => ?_⟩
    · cases n with
      | zero => exact goes result stops
      | succ n => exact stops
    · cases i with
      | zero => exact stops'
      | succ i => exact least (i + 2) (by omega) other stops'

theorem exists_firstStop (stops : e.StopsAt k result) : ∃ j other, e.FirstStop j other ∧ j ≤ k := by
  induction k using Nat.strongRecOn generalizing result with
  | ind k ih =>
    by_cases earlier : ∃ j < k, ∃ other, e.StopsAt j other
    · obtain ⟨j, early, other, stops'⟩ := earlier
      obtain ⟨i, found, first, le⟩ := ih j early stops'
      exact ⟨i, found, first, by omega⟩
    · -- No earlier tick stops, so this one is the first.
      refine ⟨k, result, ⟨stops, fun j early other stops' => ?_⟩, by omega⟩
      exact earlier ⟨j, early, other, stops'⟩

/-- A run that is long enough ends at the first tick that ends the program. -/
theorem runFor_of_firstStop {limit : Nat} (inside : e.cpu.outside = false)
    (first : e.FirstStop k result) (enough : k ≤ limit) : e.runFor limit = (e.ticked k, result) := by
  induction limit generalizing e k with
  | zero =>
    obtain rfl : k = 0 := by omega
    cases first.stops
  | succ limit ih =>
    rw [runFor]
    obtain ⟨last, ends, ticked⟩ | ⟨goes, stays, ticked⟩ := tick_of_inside inside
    · obtain ⟨rfl, rfl⟩ := first.eq_one ends
      rw [ticked]
      -- The run goes on only behind a tick that is not the last.
      cases ends <;> rfl
    · obtain ⟨j, rfl, rest⟩ := first.tail goes
      rw [ticked]
      exact ih stays rest (by omega)

/-- A run that no tick ends is as long as it may be. -/
theorem runFor_of_unstopped {limit : Nat} (inside : e.cpu.outside = false)
    (goes : ∀ k ≤ limit, ∀ other, ¬ e.StopsAt k other) :
    e.runFor limit = (e.ticked limit, .ok false) := by
  induction limit generalizing e with
  | zero => rfl
  | succ limit ih =>
    rw [runFor]
    obtain ⟨last, ends, -⟩ | ⟨-, stays, ticked⟩ := tick_of_inside inside
    · exact absurd ends (goes 1 (by omega) last)
    · rw [ticked]
      refine ih stays fun k short other stops => ?_
      cases k with
      | zero => exact stops
      | succ n => exact goes (n + 2) (by omega) other stops

theorem runFor_add {behind : Emulator} {m : Nat} (unfinished : e.runFor m = (behind, .ok false))
    (n : Nat) : e.runFor (m + n) = behind.runFor n := by
  induction m generalizing e with
  | zero =>
    cases unfinished
    rw [Nat.zero_add]
  | succ m ih =>
    rw [Nat.add_right_comm, runFor]
    rw [runFor] at unfinished
    rcases ticked : e.tick with ⟨next, error | done⟩
    · simp [ticked] at unfinished
    · cases done with
      | false =>
        simp only [ticked] at unfinished ⊢
        exact ih unfinished
      | true => simp [ticked] at unfinished

/-! ## The tick counter -/

theorem tick_ticks (cpu : Cpu) :
    cpu.tick.1.ticks = cpu.ticks + if cpu.tick.2 = none then 1 else 0 := by
  rw [Cpu.tick_eq]
  by_cases outside : cpu.rom.size ≤ cpu.pc.toNat
  · simp [outside]
  · by_cases blocked : cpu.Blocked (cpu.rom[cpu.pc.toNat]?.getD 0#16)
    · simp [outside, blocked]
    · simp [outside, blocked]

/-- As many ticks as do not fail are counted. -/
theorem ticks_ticked {n : Nat} (succeed : ∀ j < n, (e.ticked j).cpu.tick.2 = none) :
    (e.ticked n).cpu.ticks = e.cpu.ticks + n := by
  induction n generalizing e with
  | zero => rfl
  | succ n ih =>
    have rest := @ih (e.ticked 1) fun j bound => succeed (j + 1) (by omega)
    have first : (e.ticked 1).cpu.ticks = e.cpu.ticks + 1 := by
      have succeeded : e.cpu.tick.2 = none := succeed 0 (by omega)
      have counted := tick_ticks e.cpu
      rw [if_pos succeeded] at counted
      exact counted
    rw [first] at rest
    show ((e.ticked 1).ticked n).cpu.ticks = _
    omega

theorem succeeds_of_unstopped {n : Nat} (goes : ∀ other, ¬ e.StopsAt (n + 1) other) :
    (e.ticked n).cpu.tick.2 = none := by
  cases failed : (e.ticked n).cpu.tick.2 with
  | none => rfl
  | some fault => exact absurd (.fails failed) (goes _)

/-- Behind the last tick the counter has gone up by one for each tick but one that failed, and that
one changed nothing. -/
theorem FirstStop.counted (first : e.FirstStop k result) :
    (result = .ok true ∧ (e.ticked k).cpu.ticks = e.cpu.ticks + k) ∨
    ∃ n error, k = n + 1 ∧ result = .error error ∧ e.ticked k = e.ticked n ∧
      (e.ticked k).cpu.ticks = e.cpu.ticks + n := by
  obtain ⟨stops, least⟩ := first
  cases k with
  | zero => cases stops
  | succ n =>
    have before : ∀ j < n, (e.ticked j).cpu.tick.2 = none :=
      fun j bound => succeeds_of_unstopped (least (j + 1) (by omega))
    have done : (e.ticked n).cpu.tick.2 = none →
        (e.ticked (n + 1)).cpu.ticks = e.cpu.ticks + (n + 1) := by
      intro last
      apply ticks_ticked
      intro j bound
      rcases Nat.lt_succ_iff_lt_or_eq.mp bound with bound | rfl
      · exact before j bound
      · exact last
    cases stops with
    | leaves last => exact .inl ⟨rfl, done last⟩
    | idles last => exact .inl ⟨rfl, done last⟩
    | fails failed =>
      have same : e.ticked (n + 1) = e.ticked n := by
        rw [ticked_succ]
        exact ticked_one_of_fault failed
      exact .inr ⟨n, _, rfl, rfl, same, by rw [same, ticks_ticked before]⟩

end

/-! ## Runs -/

/-- What a run does, said in ticks of the bare processor. -/
structure RunsByTicks (e : Emulator) : Prop where
  /-- Outside of the program there is nothing to run. -/
  outside : e.cpu.outside = true → ∀ fuel limit, 0 < limit ∨ 0 < fuel →
    e.run fuel limit = (e, some (.ok true))
  /-- A run ends with the first tick that ends the program, if the limit allows so many. -/
  ended : e.cpu.outside = false → ∀ k result, e.FirstStop k result →
    ∀ fuel (limit : Int), k ≤ limit → e.run fuel limit = (e.ticked k, some result)
  /-- If it does not, there are as many ticks as the limit says. -/
  unfinished : e.cpu.outside = false → ∀ fuel (limit : Int), 0 < limit →
    (∀ k result, e.StopsAt k result → limit < k) →
      e.run fuel limit = (e.ticked limit.toNat, some (.ok false)) ∧
        ((e.ticked limit.toNat).cpu.ticks : Int) = e.cpu.ticks + limit
  /-- Without a limit a run returns exactly when some tick ends the program, and then so. -/
  unlimited : e.cpu.outside = false → ∀ limit ≤ 0,
    ((∃ fuel result, (e.run fuel limit).2 = some result) ↔ ∃ k result, e.StopsAt k result) ∧
      ∀ k result, e.FirstStop k result → ∀ fuel ≥ k, e.run fuel limit = (e.ticked k, some result)
  /-- The ticks that succeed are counted, and a last one that fails changes nothing. -/
  counted : ∀ k result, e.FirstStop k result →
    (result = .ok true ∧ (e.ticked k).cpu.ticks = e.cpu.ticks + k) ∨
    ∃ n error, k = n + 1 ∧ result = .error error ∧ e.ticked k = e.ticked n ∧
      (e.ticked k).cpu.ticks = e.cpu.ticks + n
  /-- A run that the limit cut off can be taken up again. -/
  resumed : ∀ fuel (m n : Int) behind, 0 < m → 0 < n → e.run fuel m = (behind, some (.ok false)) →
    behind.run fuel n = e.run fuel (m + n)

variable {e : Emulator}

theorem run_of_pos {limit : Int} (positive : 0 < limit) (fuel : Nat) :
    e.run fuel limit = ((e.runFor limit.toNat).1, some (e.runFor limit.toNat).2) := by
  rw [run, if_pos positive]

theorem runFor_of_outside (outside : e.cpu.outside = true) (limit : Nat) :
    e.runFor (limit + 1) = (e, .ok true) := by
  simp [runFor, tick, outside]

/-- A run without a limit that has returned is a bounded one. -/
theorem runFor_of_returned {fuel : Nat} {limit : Int} {result : Except RuntimeError Bool}
    (unlimited : limit ≤ 0) (returned : (e.run fuel limit).2 = some result) :
    (e.runFor fuel).2 = result ∧ result ≠ .ok false := by
  rw [run, if_neg (by omega)] at returned
  rcases ran : e.runFor fuel with ⟨behind, error | done⟩
  · simp [ran] at returned
    simp [← returned]
  · cases done with
    | false => simp [ran] at returned
    | true =>
      simp [ran] at returned
      simp [← returned]

theorem run_of_runFor {fuel : Nat} {limit : Int} {behind : Emulator} {result : Except RuntimeError Bool}
    (unlimited : limit ≤ 0) (ran : e.runFor fuel = (behind, result)) (ended : result ≠ .ok false) :
    e.run fuel limit = (behind, some result) := by
  rw [run, if_neg (by omega), ran]
  rcases result with error | done
  · rfl
  · cases done with
    | false => exact absurd rfl ended
    | true => rfl

theorem FirstStop.ne_false {k : Nat} {result : Except RuntimeError Bool} (first : e.FirstStop k result) :
    result ≠ .ok false := by
  obtain ⟨rfl, -⟩ | ⟨_, _, -, rfl, -⟩ := first.counted
  · simp
  · simp

/-- A run without a limit that returns was ended by a tick. -/
theorem stopsAt_of_returned {fuel : Nat} {limit : Int} {result : Except RuntimeError Bool}
    (inside : e.cpu.outside = false) (unlimited : limit ≤ 0)
    (returned : (e.run fuel limit).2 = some result) : ∃ k result, e.StopsAt k result := by
  obtain ⟨ran, ended⟩ := runFor_of_returned unlimited returned
  apply Classical.byContradiction
  intro goes
  -- With no last tick the fuel would be used up, and such a run does not return.
  rw [runFor_of_unstopped inside fun k _ other stops => goes ⟨k, other, stops⟩] at ran
  exact ended ran.symm

/-- A run is bounded iteration of the bare processor, from every state and for every limit. -/
theorem run_iterates_ticks (e : Emulator) : e.RunsByTicks where
  outside outside fuel limit waits := by
    by_cases positive : 0 < limit
    · obtain ⟨n, rfl⟩ : ∃ n : Nat, limit = n + 1 := ⟨(limit - 1).toNat, by omega⟩
      rw [run_of_pos positive, Int.toNat_natCast_add_one, runFor_of_outside outside]
    · obtain ⟨n, rfl⟩ : ∃ n, fuel = n + 1 := ⟨fuel - 1, by omega⟩
      exact run_of_runFor (by omega) (runFor_of_outside outside n) (by simp)
  ended inside k result first fuel limit enough := by
    have positive : 0 < k := by
      cases k with
      | zero => cases first.stops
      | succ n => omega
    rw [run_of_pos (by omega), runFor_of_firstStop inside first (by omega)]
  unfinished inside fuel limit positive goes := by
    have unstopped : ∀ k ≤ limit.toNat, ∀ other, ¬ e.StopsAt k other := by
      intro k short other stops
      have later := goes k other stops
      omega
    constructor
    · rw [run_of_pos positive, runFor_of_unstopped inside unstopped]
    · rw [ticks_ticked fun j bound => succeeds_of_unstopped (unstopped (j + 1) (by omega))]
      omega
  unlimited inside limit unlimited := by
    have ended : ∀ k result, e.FirstStop k result → ∀ fuel ≥ k,
        e.run fuel limit = (e.ticked k, some result) :=
      fun k result first fuel enough =>
        run_of_runFor unlimited (runFor_of_firstStop inside first enough) first.ne_false
    refine ⟨⟨?_, ?_⟩, ended⟩
    · rintro ⟨fuel, result, returned⟩
      exact stopsAt_of_returned inside unlimited returned
    · rintro ⟨k, result, stops⟩
      obtain ⟨j, final, first, -⟩ := exists_firstStop stops
      exact ⟨j, final, by rw [ended j final first j (by omega)]⟩
  counted _ _ first := first.counted
  resumed fuel m n behind someFirst someMore unfinished := by
    rw [run_of_pos someFirst, Prod.mk.injEq, Option.some.injEq] at unfinished
    have ran : e.runFor m.toNat = (behind, .ok false) := Prod.ext unfinished.1 unfinished.2
    rw [run_of_pos someMore, run_of_pos (by omega), Int.toNat_add (by omega) (by omega), runFor_add ran]

end Emulator

end HackMachine
