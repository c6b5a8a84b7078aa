import HackMachine.Program.Validation
import HackMachine.Proofs.Outcome
import HackMachine.Proofs.Program.Labels

/-! # What validation accepts

`Valid` states the rules of a program without a walk: every item fits the machine, no name is
declared twice, and every referenced name has an address that an instruction can hold.
`validate_eq_ok_iff` says that validation accepts exactly the valid programs.

The walk is described by where it ends: `Walk.behind` is the walk with the declarations, references
and slots of more items, and `Walk.step` goes there or refuses.
-/

namespace HackMachine

/-- A binary operator takes `D` and one of `A`, `*A`. -/
def Expr.OperandsFit : Expr → Prop
  | .binary x _ y => (x = .d ∧ y ≠ .d) ∨ (x ≠ .d ∧ y = .d)
  | _ => True

/-- What the machine asks of an item by itself. -/
def Item.Fits (item : Item) : Prop :=
  match item.statement with
  | .address (.value value) _ _ => 0 ≤ value ∧ value ≤ immediateMax
  | .compute c _ => c.registers.Nodup ∧ c.expr.OperandsFit
  | _ => True

/-- The rules of a program. -/
structure Valid (items : List Item) : Prop where
  fits : ∀ item ∈ items, item.Fits
  distinct : (declaredNames items).Nodup
  resolved : ∀ item ∈ items, ∀ name, item.referenced? = some name →
    ∃ address : Nat, DeclaredAt items name address ∧ (address : Int) ≤ immediateMax

/-- Without labels only the items by themselves count. -/
theorem valid_iff_fits {items : List Item}
    (plain : ∀ item ∈ items, item.declared? = none ∧ item.referenced? = none) :
    Valid items ↔ ∀ item ∈ items, item.Fits := by
  refine ⟨Valid.fits, fun fits => ⟨fits, ?_, fun item member name refers => ?_⟩⟩
  · have undeclared : declaredNames items = [] :=
      List.filterMap_eq_nil_iff.mpr fun item member => (plain item member).1
    rw [undeclared]
    exact List.nodup_nil
  · rw [(plain item member).2] at refers
    cases refers

/-- The reference that an item makes, with its place. -/
def Item.reference? (item : Item) : Option Reference :=
  match item.statement with
  | .address (.label name) targetPos _ => some ⟨name, targetPos, item.line⟩
  | _ => none

theorem Item.reference?_label (item : Item) :
    item.reference?.map (·.label) = item.referenced? := by
  obtain ⟨lineNo, line, statement⟩ := item
  cases statement with
  | address target targetPos pos => cases target <;> rfl
  | _ => rfl

/-! ## Items by themselves -/

theorem repeatedDestination?_eq_none_iff {seen : List Register} {destinations : List Destination} :
    repeatedDestination? seen destinations = none ↔
      (destinations.map (·.register)).Nodup ∧
        ∀ register ∈ destinations.map (·.register), register ∉ seen := by
  induction destinations generalizing seen with
  | nil => simp [repeatedDestination?]
  | cons d rest ih =>
    rw [repeatedDestination?]
    by_cases found : d.register ∈ seen
    · simp [found]
    · simp only [List.contains_iff_mem, found, if_false, ih, List.map_cons, List.nodup_cons,
        List.mem_cons, not_or, forall_eq_or_imp, not_false_eq_true, true_and]
      constructor
      · rintro ⟨distinct, fresh⟩
        exact ⟨⟨fun member => (fresh _ member).1 rfl, distinct⟩, fun r member => (fresh r member).2⟩
      · rintro ⟨⟨absent, distinct⟩, fresh⟩
        exact ⟨distinct, fun r member => ⟨fun same => absent (same ▸ member), fresh r member⟩⟩

theorem Computation.registers_nodup_iff {c : Computation} :
    c.registers.Nodup ↔ repeatedDestination? [] c.destinations = none := by
  rw [repeatedDestination?_eq_none_iff]
  simp [Computation.registers]

theorem operandFault?_eq_none_iff {e : Expr} : operandFault? e = none ↔ e.OperandsFit := by
  cases e with
  | binary x op y => cases x <;> cases y <;> simp [operandFault?, Expr.OperandsFit]
  | _ => simp [operandFault?, Expr.OperandsFit]

theorem computationFault?_eq_none_iff {c : Computation} :
    computationFault? c = none ↔ c.registers.Nodup ∧ c.expr.OperandsFit := by
  rw [Computation.registers_nodup_iff, ← operandFault?_eq_none_iff]
  unfold computationFault?
  cases repeatedDestination? [] c.destinations with
  | some d => simp
  | none => simp

/-! ## The walk -/

/-- The walk with the declarations, references and slots of more items. -/
def Walk.behind (w : Walk) (items : List Item) : Walk where
  declared := (declarations w.address items).reverse ++ w.declared
  references := (items.filterMap Item.reference?).reverse ++ w.references
  address := w.address + (instructions items).length

theorem Walk.behind_nil (w : Walk) : w.behind [] = w := by
  simp [Walk.behind, declarations]

theorem Walk.behind_append (w : Walk) (before after : List Item) :
    w.behind (before ++ after) = (w.behind before).behind after := by
  simp [Walk.behind, declarations_append, List.filterMap_append, Nat.add_assoc]

theorem Symbols.find?_isSome_iff {symbols : Symbols} {name : Bytes} :
    (symbols.find? name).isSome ↔ name ∈ symbols.map Prod.fst := by
  simp [Symbols.find?]

/-- A step refuses an item that does not fit or repeats a name, and else takes it in. -/
theorem Walk.step_eq_ok_iff {w w' : Walk} {item : Item} :
    w.step item = .ok w' ↔
      item.Fits ∧ (∀ name, item.declared? = some name → name ∉ w.declared.map Prod.fst) ∧
        w' = w.behind [item] := by
  obtain ⟨lineNo, line, statement⟩ := item
  cases statement with
  | label name pos =>
    simp only [Walk.step, Item.Fits, Item.declared?, Symbols.find?_isSome_iff, Option.some.injEq,
      forall_eq', true_and]
    have taken : w.behind [⟨lineNo, line, .label name pos⟩] =
      { w with declared := (name, (w.address : Int)) :: w.declared } := rfl
    by_cases known : name ∈ w.declared.map Prod.fst
    · simp only [known, if_true, not_true, false_and, reduceCtorEq]
    · simp only [known, if_false, not_false_eq_true, true_and, taken, Except.ok.injEq, eq_comm]
  | address target targetPos pos =>
    cases target with
    | label name =>
      simp only [Walk.step, Item.Fits, Item.declared?, reduceCtorEq, false_implies, implies_true,
        true_and, Except.ok.injEq]
      exact eq_comm
    | value value =>
      have taken : w.behind [⟨lineNo, line, .address (.value value) targetPos pos⟩] =
        { w with address := w.address + 1 } := rfl
      by_cases range : 0 ≤ value ∧ value ≤ immediateMax
      · have inside : (decide (value < 0) || decide (value > immediateMax)) = false := by
          simp only [Bool.or_eq_false_iff, decide_eq_false_iff_not]
          omega
        simp [Walk.step, Item.Fits, Item.declared?, inside, range, taken, eq_comm]
      · have outside : (decide (value < 0) || decide (value > immediateMax)) = true := by
          simp only [Bool.or_eq_true, decide_eq_true_eq]
          omega
        simp [Walk.step, Item.Fits, outside, range]
  | compute c pos =>
    have taken : w.behind [⟨lineNo, line, .compute c pos⟩] = { w with address := w.address + 1 } := rfl
    simp only [Walk.step, Item.Fits, Item.declared?, taken]
    cases fault : computationFault? c with
    | none =>
      have fits := computationFault?_eq_none_iff.mp fault
      simp [fits, eq_comm]
    | some found =>
      have unfit : ¬ (c.registers.Nodup ∧ c.expr.OperandsFit) := by
        intro fits
        rw [computationFault?_eq_none_iff.mpr fits] at fault
        cases fault
      simp [unfit]

/-- The whole walk: every item fits, and no name is declared twice or was declared before. -/
theorem foldlM_step_eq_ok_iff {w w' : Walk} {items : List Item}
    (before : (w.declared.map Prod.fst).Nodup) :
    items.foldlM Walk.step w = .ok w' ↔
      (∀ item ∈ items, item.Fits) ∧ (declaredNames items).Nodup ∧
        (∀ name ∈ declaredNames items, name ∉ w.declared.map Prod.fst) ∧ w' = w.behind items := by
  induction items generalizing w w' with
  | nil =>
    rw [List.foldlM_nil, Walk.behind_nil]
    simp [declaredNames, pure, Except.pure, eq_comm]
  | cons item rest ih =>
    rw [List.foldlM_cons, bind_eq_ok_iff]
    -- What holds behind this item is asked of the rest, so the names to avoid grow by the one declared.
    have onward : w.behind (item :: rest) = (w.behind [item]).behind rest :=
      w.behind_append [item] rest
    cases declares : item.declared? with
    | some name =>
      have names : (w.behind [item]).declared = (name, (w.address : Int)) :: w.declared := by
        rw [Walk.behind, declarations_cons_label declares]
        rfl
      simp only [Walk.step_eq_ok_iff, declares, Option.some.injEq, forall_eq']
      constructor
      · rintro ⟨_, ⟨fits, fresh, rfl⟩, rest_ok⟩
        have distinct : ((w.behind [item]).declared.map Prod.fst).Nodup := by
          rw [names, List.map_cons, List.nodup_cons]
          exact ⟨fresh, before⟩
        obtain ⟨rest_fits, rest_distinct, rest_fresh, rfl⟩ := (ih distinct).mp rest_ok
        rw [names, List.map_cons] at rest_fresh
        rw [declaredNames_cons_label declares]
        refine ⟨?_, ?_, ?_, onward.symm⟩
        · exact List.forall_mem_cons.mpr ⟨fits, rest_fits⟩
        · exact List.nodup_cons.mpr
            ⟨fun member => rest_fresh name member List.mem_cons_self, rest_distinct⟩
        · refine List.forall_mem_cons.mpr ⟨fresh, fun other member known => ?_⟩
          exact rest_fresh other member (List.mem_cons_of_mem _ known)
      · rw [declaredNames_cons_label declares]
        rintro ⟨fits, distinct, fresh, rfl⟩
        rw [List.forall_mem_cons] at fits fresh
        rw [List.nodup_cons] at distinct
        refine ⟨_, ⟨fits.1, fresh.1, rfl⟩, ?_⟩
        rw [onward, ih (by rw [names, List.map_cons, List.nodup_cons]; exact ⟨fresh.1, before⟩), names]
        refine ⟨fits.2, distinct.2, fun other member known => ?_, rfl⟩
        rcases List.mem_cons.mp known with rfl | known
        · exact distinct.1 member
        · exact fresh.2 other member known
    | none =>
      have slot := Item.slot_iff_undeclared.mpr declares
      have names : (w.behind [item]).declared = w.declared := by
        rw [Walk.behind, declarations_cons_slot slot]
        rfl
      simp only [Walk.step_eq_ok_iff, declares, reduceCtorEq, false_implies, implies_true, true_and]
      rw [declaredNames_cons_slot slot, List.forall_mem_cons, onward]
      constructor
      · rintro ⟨_, ⟨fits, rfl⟩, rest_ok⟩
        rw [ih (names ▸ before), names] at rest_ok
        exact ⟨⟨fits, rest_ok.1⟩, rest_ok.2⟩
      · rintro ⟨⟨fits, rest_fits⟩, rest_ok⟩
        exact ⟨_, ⟨fits, rfl⟩, (ih (names ▸ before)).mpr ⟨rest_fits, names ▸ rest_ok⟩⟩

theorem walk_eq_ok_iff {walk : Walk} {items : List Item} :
    items.foldlM Walk.step {} = .ok walk ↔
      (∀ item ∈ items, item.Fits) ∧ (declaredNames items).Nodup ∧
        walk = Walk.behind {} items := by
  rw [foldlM_step_eq_ok_iff (by simp)]
  simp

/-! ## References -/

theorem Reference.check_eq_ok_iff {declared : Symbols} {r : Reference} :
    r.check declared = .ok () ↔
      ∃ address, declared.find? r.label = some address ∧ address ≤ immediateMax := by
  unfold Reference.check
  cases declared.find? r.label with
  | none => simp
  | some address =>
    by_cases beyond : address > immediateMax
    · simp [beyond, Int.not_le.mpr beyond]
    · simp [beyond, Int.not_lt.mp beyond]

theorem exists_reference_iff {items : List Item} {name : Bytes} :
    (∃ r ∈ items.filterMap Item.reference?, r.label = name) ↔
      ∃ item ∈ items, item.referenced? = some name := by
  simp only [← Item.reference?_label, List.mem_filterMap, Option.map_eq_some_iff]
  constructor
  · rintro ⟨r, ⟨item, member, refers⟩, same⟩
    exact ⟨item, member, r, refers, same⟩
  · rintro ⟨item, member, r, refers, same⟩
    exact ⟨r, ⟨item, member, refers⟩, same⟩

theorem validate_eq_ok_iff {items : List Item} : validate items = .ok () ↔ Valid items := by
  rw [validate, bind_eq_ok_iff]
  constructor
  · rintro ⟨walk, walked, checked⟩
    obtain ⟨fits, distinct, rfl⟩ := walk_eq_ok_iff.mp walked
    refine ⟨fits, distinct, fun item member name refers => ?_⟩
    obtain ⟨r, listed, rfl⟩ := exists_reference_iff.mpr ⟨item, member, refers⟩
    have passes := forM_eq_ok_iff.mp checked r (by simpa [Walk.behind] using listed)
    obtain ⟨address, found, range⟩ := Reference.check_eq_ok_iff.mp passes
    simp only [Walk.behind, List.append_nil] at found
    obtain ⟨count, declared, rfl⟩ := (find?_declarations distinct).mp found
    exact ⟨count, declared, range⟩
  · intro valid
    refine ⟨_, walk_eq_ok_iff.mpr ⟨valid.fits, valid.distinct, rfl⟩, forM_eq_ok_iff.mpr ?_⟩
    intro r listed
    simp only [Walk.behind, List.append_nil, List.reverse_reverse] at listed
    obtain ⟨item, member, refers⟩ := exists_reference_iff.mp ⟨r, listed, rfl⟩
    obtain ⟨count, declared, range⟩ := valid.resolved item member _ refers
    refine Reference.check_eq_ok_iff.mpr ⟨count, ?_, range⟩
    simp only [Walk.behind, List.append_nil]
    exact (find?_declarations valid.distinct).mpr ⟨count, declared, rfl⟩

end HackMachine
