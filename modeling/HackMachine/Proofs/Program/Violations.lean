import HackMachine.Proofs.Program.Validity

/-! # What validation reports

`FirstViolation` says which report a program deserves, without a walk: that of its first item that
breaks a rule by itself or declares a name again, and when there is none that of its first reference
to a label without a usable address.  `validate_reports_first_violation` says that validation accepts
exactly the valid programs and makes exactly this report for the others.
-/

namespace HackMachine

/-- How an item breaks a rule behind the items in `before`, and the report of it. -/
inductive Breach (before : List Item) : Item → Diagnostic → Prop
  | constant {lineNo line value targetPos pos} :
      ¬ (0 ≤ value ∧ value ≤ immediateMax) →
      Breach before ⟨lineNo, line, .address (.value value) targetPos pos⟩
        ⟨targetPos, line, .immediateRange (targetPos.slice line)⟩
  -- The first destination that repeats one is reported, whatever the expression is.
  | destination {lineNo line c pos left d right} :
      c.destinations = left ++ d :: right → (left.map (·.register)).Nodup →
      d.register ∈ left.map (·.register) →
      Breach before ⟨lineNo, line, .compute c pos⟩ ⟨d.pos, line, .duplicateTarget d.register.text⟩
  | conflict {lineNo line c pos x op y} :
      c.registers.Nodup → c.expr = .binary x op y → x ≠ .d → y ≠ .d → x ≠ y →
      Breach before ⟨lineNo, line, .compute c pos⟩ ⟨c.exprPos, line, .operandConflict⟩
  | data {lineNo line c pos x op} :
      c.registers.Nodup → c.expr = .binary x op x →
      Breach before ⟨lineNo, line, .compute c pos⟩ ⟨c.exprPos, line, .operandData⟩
  | declaration {lineNo line name pos} :
      name ∈ declaredNames before →
      Breach before ⟨lineNo, line, .label name pos⟩ ⟨pos, line, .duplicateLabel name⟩

/-- No item breaks a rule by itself, and no name is declared twice. -/
structure Orderly (items : List Item) : Prop where
  fits : ∀ item ∈ items, item.Fits
  distinct : (declaredNames items).Nodup

/-- Every label that a part of the program refers to has an address that fits an instruction. -/
def ResolvedIn (program part : List Item) : Prop :=
  ∀ item ∈ part, ∀ name, item.referenced? = some name →
    ∃ address : Nat, DeclaredAt program name address ∧ (address : Int) ≤ immediateMax

/-- The report that a program deserves. -/
inductive FirstViolation (items : List Item) : Diagnostic → Prop
  | item {before item after d} :
      items = before ++ item :: after → Orderly before → Breach before item d →
      FirstViolation items d
  | undefined {before lineNo line name targetPos pos after} :
      Orderly items →
      items = before ++ ⟨lineNo, line, .address (.label name) targetPos pos⟩ :: after →
      ResolvedIn items before → name ∉ declaredNames items →
      FirstViolation items ⟨targetPos, line, .undefinedLabel name⟩
  | range {before lineNo line name targetPos pos after address} :
      Orderly items →
      items = before ++ ⟨lineNo, line, .address (.label name) targetPos pos⟩ :: after →
      ResolvedIn items before → DeclaredAt items name address → immediateMax < (address : Int) →
      FirstViolation items ⟨targetPos, line, .labelRange name⟩

/-! ## Computations -/

theorem repeatedDestination?_eq_some_iff {seen : List Register} {destinations : List Destination}
    {d : Destination} :
    repeatedDestination? seen destinations = some d ↔
      ∃ left right, destinations = left ++ d :: right ∧ (left.map (·.register)).Nodup ∧
        (∀ register ∈ left.map (·.register), register ∉ seen) ∧
        (d.register ∈ seen ∨ d.register ∈ left.map (·.register)) := by
  induction destinations generalizing seen with
  | nil => simp [repeatedDestination?]
  | cons first rest ih =>
    rw [repeatedDestination?]
    by_cases found : first.register ∈ seen
    · rw [if_pos (List.contains_iff_mem.mpr found), Option.some.injEq]
      constructor
      · rintro rfl
        exact ⟨[], rest, rfl, by simp, by simp, .inl found⟩
      · rintro ⟨left, right, same, -, fresh, -⟩
        cases left with
        | nil =>
          cases same
          rfl
        | cons other left =>
          -- A destination before the reported one is not in `seen`, but the first one is.
          cases same
          exact absurd found (fresh first.register (by simp))
    · rw [if_neg (fun contained => found (List.contains_iff_mem.mp contained)), ih]
      constructor
      · rintro ⟨left, right, rfl, distinct, fresh, repeated⟩
        refine ⟨first :: left, right, rfl, ?_, ?_, ?_⟩
        · rw [List.map_cons, List.nodup_cons]
          exact ⟨fun member => fresh _ member List.mem_cons_self, distinct⟩
        · rw [List.map_cons, List.forall_mem_cons]
          exact ⟨found, fun r member known => fresh r member (List.mem_cons_of_mem _ known)⟩
        · rw [List.map_cons, List.mem_cons]
          rw [List.mem_cons] at repeated
          tauto
      · rintro ⟨left, right, same, distinct, fresh, repeated⟩
        cases left with
        | nil =>
          cases same
          simp [found] at repeated
        | cons other left =>
          cases same
          rw [List.map_cons, List.nodup_cons] at distinct
          rw [List.map_cons, List.forall_mem_cons] at fresh
          refine ⟨left, right, rfl, distinct.2, fun r member known => ?_, ?_⟩
          · rcases List.mem_cons.mp known with rfl | known
            · exact distinct.1 member
            · exact fresh.2 r member known
          · rw [List.map_cons, List.mem_cons] at repeated
            rw [List.mem_cons]
            tauto

theorem operandFault?_eq_some_iff {e : Expr} {cause : Cause} :
    operandFault? e = some cause ↔
      (∃ x op y, e = .binary x op y ∧ x ≠ .d ∧ y ≠ .d ∧ x ≠ y ∧ cause = .operandConflict) ∨
        ∃ x op, e = .binary x op x ∧ cause = .operandData := by
  cases e with
  | binary x op y => cases x <;> cases y <;> simp [operandFault?, eq_comm (b := cause)]
  | _ => simp [operandFault?]

/-- The fault of a computation is that of its destinations, or else that of its operands. -/
theorem computationFault?_eq_some_iff {c : Computation} {pos : Pos} {cause : Cause} :
    computationFault? c = some (pos, cause) ↔
      (∃ d, repeatedDestination? [] c.destinations = some d ∧ pos = d.pos ∧
        cause = .duplicateTarget d.register.text) ∨
      (c.registers.Nodup ∧ operandFault? c.expr = some cause ∧ pos = c.exprPos) := by
  rw [Computation.registers_nodup_iff]
  unfold computationFault?
  cases repeatedDestination? [] c.destinations with
  | some d => simp [eq_comm]
  | none =>
    simp only [reduceCtorEq, false_and, exists_false, false_or, true_and, Option.map_eq_some_iff,
      Prod.mk.injEq]
    constructor
    · rintro ⟨_, fault, rfl, rfl⟩
      exact ⟨fault, rfl⟩
    · rintro ⟨fault, rfl⟩
      exact ⟨cause, fault, rfl, rfl⟩

/-! ## Breaches by kind of item -/

section

variable {before : List Item} {lineNo : Nat} {line : Bytes} {pos : Pos} {d : Diagnostic}

theorem breach_label_iff {name : Bytes} :
    Breach before ⟨lineNo, line, .label name pos⟩ d ↔
      name ∈ declaredNames before ∧ d = ⟨pos, line, .duplicateLabel name⟩ := by
  constructor
  · intro breach
    cases breach with
    | declaration again => exact ⟨again, rfl⟩
  · rintro ⟨again, rfl⟩
    exact .declaration again

theorem breach_value_iff {value : Int} {targetPos : Pos} :
    Breach before ⟨lineNo, line, .address (.value value) targetPos pos⟩ d ↔
      ¬ (0 ≤ value ∧ value ≤ immediateMax) ∧
        d = ⟨targetPos, line, .immediateRange (targetPos.slice line)⟩ := by
  constructor
  · intro breach
    cases breach with
    | constant beyond => exact ⟨beyond, rfl⟩
  · rintro ⟨beyond, rfl⟩
    exact .constant beyond

/-- References are not judged before all declarations are known. -/
theorem not_breach_reference {name : Bytes} {targetPos : Pos} :
    ¬ Breach before ⟨lineNo, line, .address (.label name) targetPos pos⟩ d := by
  intro breach
  cases breach

theorem breach_compute_iff {c : Computation} :
    Breach before ⟨lineNo, line, .compute c pos⟩ d ↔
      ∃ fault, computationFault? c = some fault ∧ d = ⟨fault.1, line, fault.2⟩ := by
  simp only [Prod.exists, computationFault?_eq_some_iff, repeatedDestination?_eq_some_iff,
    operandFault?_eq_some_iff]
  constructor
  · intro breach
    cases breach with
    | destination listed distinct repeated =>
      exact ⟨_, _, .inl ⟨_, ⟨_, _, listed, distinct, by simp, .inr repeated⟩, rfl, rfl⟩, rfl⟩
    | conflict distinct operands noX noY differ =>
      exact ⟨_, _, .inr ⟨distinct, .inl ⟨_, _, _, operands, noX, noY, differ, rfl⟩, rfl⟩, rfl⟩
    | data distinct operands =>
      exact ⟨_, _, .inr ⟨distinct, .inr ⟨_, _, operands, rfl⟩, rfl⟩, rfl⟩
  · rintro ⟨_, _, ⟨d, ⟨left, right, listed, distinct, -, known | repeated⟩, rfl, rfl⟩ |
      ⟨distinct, ⟨x, op, y, operands, noX, noY, differ, rfl⟩ | ⟨x, op, operands, rfl⟩, rfl⟩, rfl⟩
    · cases known
    · exact .destination listed distinct repeated
    · exact .conflict distinct operands noX noY differ
    · exact .data distinct operands

end

/-! ## The walk -/

theorem behind_declared_names (before : List Item) :
    (Walk.behind {} before).declared.map Prod.fst = (declaredNames before).reverse := by
  simp [Walk.behind, declarations_map_fst]

/-- A step behind some items refuses an item exactly when it breaks a rule there. -/
theorem step_behind_eq_error_iff {before : List Item} {item : Item} {d : Diagnostic} :
    (Walk.behind {} before).step item = .error d ↔ Breach before item d := by
  obtain ⟨lineNo, line, statement⟩ := item
  cases statement with
  | label name pos =>
    simp only [Walk.step, Symbols.find?_isSome_iff, behind_declared_names, List.mem_reverse,
      breach_label_iff]
    by_cases known : name ∈ declaredNames before
    · simp only [known, if_true, Except.error.injEq, true_and, eq_comm]
    · simp only [known, if_false, reduceCtorEq, false_and]
  | address target targetPos pos =>
    cases target with
    | label name =>
      refine iff_of_false ?_ not_breach_reference
      intro refused
      cases refused
    | value value =>
      have outside : (decide (value < 0) || decide (value > immediateMax)) = true ↔
          ¬ (0 ≤ value ∧ value ≤ immediateMax) := by
        simp only [Bool.or_eq_true, decide_eq_true_eq]
        omega
      simp only [Walk.step, outside, breach_value_iff]
      by_cases range : 0 ≤ value ∧ value ≤ immediateMax
      · simp only [range, not_true_eq_false, and_self, if_false, reduceCtorEq, false_and]
      · simp only [range, not_false_eq_true, if_true, Except.error.injEq, true_and, eq_comm]
  | compute c pos =>
    simp only [Walk.step, breach_compute_iff]
    cases computationFault? c with
    | none => simp
    | some fault => simp only [Except.error.injEq, Option.some.injEq, exists_eq_left', eq_comm]

theorem walk_eq_error_iff {items : List Item} {d : Diagnostic} :
    items.foldlM Walk.step {} = .error d ↔
      ∃ before item after, items = before ++ item :: after ∧ Orderly before ∧ Breach before item d := by
  rw [foldlM_eq_error_iff]
  constructor
  · rintro ⟨before, item, after, reached, same, walked, refused⟩
    obtain ⟨fits, distinct, rfl⟩ := walk_eq_ok_iff.mp walked
    exact ⟨before, item, after, same, ⟨fits, distinct⟩, step_behind_eq_error_iff.mp refused⟩
  · rintro ⟨before, item, after, same, ⟨fits, distinct⟩, breach⟩
    exact ⟨before, item, after, _, same, walk_eq_ok_iff.mpr ⟨fits, distinct, rfl⟩,
      step_behind_eq_error_iff.mpr breach⟩

/-! ## References -/

theorem find?_behind_declared {items : List Item} (distinct : (declaredNames items).Nodup)
    {name : Bytes} {address : Int} :
    (Walk.behind {} items).declared.find? name = some address ↔
      ∃ count : Nat, DeclaredAt items name count ∧ address = count := by
  rw [← find?_declarations distinct]
  simp [Walk.behind]

theorem check_eq_error_iff {items : List Item} (distinct : (declaredNames items).Nodup)
    {r : Reference} {d : Diagnostic} :
    r.check (Walk.behind {} items).declared = .error d ↔
      (r.label ∉ declaredNames items ∧ d = ⟨r.pos, r.line, .undefinedLabel r.label⟩) ∨
      ∃ address : Nat, DeclaredAt items r.label address ∧ immediateMax < (address : Int) ∧
        d = ⟨r.pos, r.line, .labelRange r.label⟩ := by
  have known : r.label ∈ declaredNames items ↔
      ((Walk.behind {} items).declared.find? r.label).isSome := by
    rw [Symbols.find?_isSome_iff, behind_declared_names, List.mem_reverse]
  have addressed := @find?_behind_declared items distinct r.label
  unfold Reference.check
  rw [known]
  cases found : (Walk.behind {} items).declared.find? r.label with
  | none =>
    have nowhere : ∀ address : Nat, ¬ DeclaredAt items r.label address := by
      intro address declared
      have placed := addressed.mpr ⟨address, declared, rfl⟩
      rw [found] at placed
      cases placed
    simp [nowhere, eq_comm]
  | some value =>
    obtain ⟨count, declared, rfl⟩ := addressed.mp found
    -- The label has no other address.
    have unique : ∀ address : Nat, DeclaredAt items r.label address ↔ address = count := by
      intro address
      constructor
      · intro other
        have same := addressed.mpr ⟨address, other, rfl⟩
        rw [found, Option.some.injEq, Int.natCast_inj] at same
        exact same.symm
      · rintro rfl
        exact declared
    by_cases beyond : immediateMax < (count : Int)
    · simp [unique, beyond, eq_comm]
    · simp [unique, beyond]

/-- References are checked in the order of the items that make them. -/
theorem forM_references {check : Reference → Except Diagnostic Unit} (items : List Item) :
    (items.filterMap Item.reference?).forM check =
      items.forM fun item => (item.reference?.map check).getD (.ok ()) := by
  induction items with
  | nil => rfl
  | cons item rest ih =>
    change _ = ((item.reference?.map check).getD (.ok ()) >>= fun _ => rest.forM _)
    rw [← ih]
    cases refers : item.reference? with
    | none =>
      rw [List.filterMap_cons_none refers]
      rfl
    | some r =>
      rw [List.filterMap_cons_some refers]
      rfl

theorem Item.reference?_eq_some {item : Item} {r : Reference} (refers : item.reference? = some r) :
    ∃ lineNo pos, item = ⟨lineNo, r.line, .address (.label r.label) r.pos pos⟩ := by
  obtain ⟨lineNo, line, statement⟩ := item
  cases statement with
  | label | compute => cases refers
  | address target targetPos pos =>
    cases target with
    | value => cases refers
    | label name =>
      cases refers
      exact ⟨lineNo, pos, rfl⟩

theorem resolvedIn_iff {items part : List Item} (distinct : (declaredNames items).Nodup) :
    ResolvedIn items part ↔
      ∀ item ∈ part,
        (item.reference?.map (Reference.check (Walk.behind {} items).declared)).getD (.ok ()) =
          .ok () := by
  refine forall_congr' fun item => forall_congr' fun _ => ?_
  rw [← Item.reference?_label]
  cases item.reference? with
  | none => simp
  | some r =>
    simp only [Option.map_some, Option.some.injEq, forall_eq', Option.getD_some,
      Reference.check_eq_ok_iff, find?_behind_declared distinct]
    constructor
    · rintro ⟨address, declared, range⟩
      exact ⟨address, ⟨address, declared, rfl⟩, range⟩
    · rintro ⟨_, ⟨address, declared, rfl⟩, range⟩
      exact ⟨address, declared, range⟩

/-- The check of the references fails at the first one without a usable address. -/
theorem references_eq_error_iff {items : List Item} (distinct : (declaredNames items).Nodup)
    {d : Diagnostic} :
    (Walk.behind {} items).references.reverse.forM
        (Reference.check (Walk.behind {} items).declared) = .error d ↔
      ∃ before item after r, items = before ++ item :: after ∧ ResolvedIn items before ∧
        item.reference? = some r ∧ r.check (Walk.behind {} items).declared = .error d := by
  have listed : (Walk.behind {} items).references.reverse = items.filterMap Item.reference? := by
    simp [Walk.behind]
  rw [listed, forM_references, forM_eq_error_iff]
  constructor
  · rintro ⟨before, item, after, same, passed, refused⟩
    cases refers : item.reference? with
    | none =>
      rw [refers] at refused
      cases refused
    | some r =>
      rw [refers] at refused
      exact ⟨before, item, after, r, same, (resolvedIn_iff distinct).mpr passed, refers, refused⟩
  · rintro ⟨before, item, after, r, same, resolved, refers, refused⟩
    refine ⟨before, item, after, same, (resolvedIn_iff distinct).mp resolved, ?_⟩
    rw [refers]
    exact refused

/-! ## The report -/

theorem validate_eq_error_iff {items : List Item} {d : Diagnostic} :
    validate items = .error d ↔ FirstViolation items d := by
  rw [validate, bind_eq_error_iff, walk_eq_error_iff]
  constructor
  · rintro (⟨before, item, after, same, orderly, breach⟩ | ⟨walk, walked, failed⟩)
    · exact .item same orderly breach
    · obtain ⟨fits, distinct, rfl⟩ := walk_eq_ok_iff.mp walked
      obtain ⟨before, item, after, r, same, resolved, refers, refused⟩ :=
        (references_eq_error_iff distinct).mp failed
      obtain ⟨lineNo, pos, rfl⟩ := Item.reference?_eq_some refers
      obtain ⟨absent, rfl⟩ | ⟨address, declared, beyond, rfl⟩ :=
        (check_eq_error_iff distinct).mp refused
      · exact .undefined ⟨fits, distinct⟩ same resolved absent
      · exact .range ⟨fits, distinct⟩ same resolved declared beyond
  · -- Where the items are orderly the walk goes to its end, and a reference is refused.
    intro violation
    cases violation with
    | item same orderly breach => exact .inl ⟨_, _, _, same, orderly, breach⟩
    | @undefined before lineNo line name targetPos pos after orderly same resolved absent =>
      refine .inr ⟨_, walk_eq_ok_iff.mpr ⟨orderly.fits, orderly.distinct, rfl⟩, ?_⟩
      refine (references_eq_error_iff orderly.distinct).mpr
        ⟨before, _, after, ⟨name, targetPos, line⟩, same, resolved, rfl, ?_⟩
      exact (check_eq_error_iff orderly.distinct).mpr (.inl ⟨absent, rfl⟩)
    | @range before lineNo line name targetPos pos after address orderly same resolved declared beyond =>
      refine .inr ⟨_, walk_eq_ok_iff.mpr ⟨orderly.fits, orderly.distinct, rfl⟩, ?_⟩
      refine (references_eq_error_iff orderly.distinct).mpr
        ⟨before, _, after, ⟨name, targetPos, line⟩, same, resolved, rfl, ?_⟩
      exact (check_eq_error_iff orderly.distinct).mpr (.inr ⟨address, declared, beyond, rfl⟩)

/-- Validation accepts exactly the valid programs, and of any other it reports the first violation,
which there is just one of. -/
theorem validate_reports_first_violation (items : List Item) :
    (validate items = .ok () ↔ Valid items) ∧
    (∀ d, validate items = .error d ↔ FirstViolation items d) ∧
    (Valid items ∨ ∃! d, FirstViolation items d) := by
  refine ⟨validate_eq_ok_iff, fun d => validate_eq_error_iff, ?_⟩
  cases validated : validate items with
  | ok accepted => exact .inl (validate_eq_ok_iff.mp validated)
  | error d =>
    refine .inr ⟨d, validate_eq_error_iff.mp validated, fun other violation => ?_⟩
    have reported := validate_eq_error_iff.mpr violation
    rw [validated, Except.error.injEq] at reported
    exact reported.symm

end HackMachine
