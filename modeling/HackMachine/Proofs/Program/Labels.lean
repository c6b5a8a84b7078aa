import Mathlib.Data.List.Nodup
import HackMachine.Program.Passes

/-! # Declared labels and their addresses

The address of a label is the number of instructions before its declaration.  `DeclaredAt` says so
about a list of items, `addressOf?` computes it, and `declarations` lists all names with their
addresses.  When no name is declared twice the three agree, and the table that `index` builds is the
list of declarations, the latest first.
-/

namespace HackMachine

/-- The name that an item declares. -/
def Item.declared? (item : Item) : Option Bytes :=
  match item.statement with
  | .label name _ => some name
  | _ => none

/-- The name whose address an item loads. -/
def Item.referenced? (item : Item) : Option Bytes :=
  match item.statement with
  | .address (.label name) _ _ => some name
  | _ => none

/-- The names that items declare, in order. -/
def declaredNames (items : List Item) : List Bytes := items.filterMap Item.declared?

/-- A declaration of `name` stands behind exactly `address` instructions. -/
def DeclaredAt (items : List Item) (name : Bytes) (address : Nat) : Prop :=
  ∃ before item after, items = before ++ item :: after ∧ item.declared? = some name ∧
    (instructions before).length = address

/-- The number of instructions before the first declaration of a name. -/
def addressOf? (items : List Item) (name : Bytes) : Option Nat :=
  (items.findIdx? (·.declared? == some name)).map fun i => (instructions (items.take i)).length

/-- The declared names with their addresses, where `address` instructions come before the items. -/
def declarations (address : Nat) : List Item → Symbols
  | [] => []
  | item :: rest =>
    match item.statement with
    | .label name _ => (name, (address : Int)) :: declarations address rest
    | _ => declarations (address + 1) rest

/-! ## Items and slots -/

@[simp] theorem instructions_nil : instructions [] = [] := rfl

@[simp] theorem instructions_append (before after : List Item) :
    instructions (before ++ after) = instructions before ++ instructions after := by
  simp [instructions]

theorem Item.declared?_eq_some {item : Item} {name : Bytes} (declares : item.declared? = some name) :
    ∃ pos, item.statement = .label name pos := by
  unfold Item.declared? at declares
  split at declares
  · next label pos same =>
    cases declares
    exact ⟨pos, same⟩
  · cases declares

theorem Item.referenced?_eq_some {item : Item} {name : Bytes}
    (refers : item.referenced? = some name) :
    ∃ targetPos pos, item.statement = .address (.label name) targetPos pos := by
  unfold Item.referenced? at refers
  split at refers
  · next label targetPos pos same =>
    cases refers
    exact ⟨targetPos, pos, same⟩
  · cases refers

/-- An item declares a name or takes a slot. -/
theorem Item.slot_iff_undeclared {item : Item} :
    item.statement.isInstruction = true ↔ item.declared? = none := by
  unfold Item.declared?
  cases item.statement <;> simp [Statement.isInstruction]

theorem instructions_cons_label {item : Item} {name : Bytes} (declares : item.declared? = some name)
    (rest : List Item) : instructions (item :: rest) = instructions rest := by
  obtain ⟨pos, same⟩ := Item.declared?_eq_some declares
  simp [instructions, same, Statement.isInstruction]

theorem instructions_cons_slot {item : Item} (slot : item.statement.isInstruction = true)
    (rest : List Item) : instructions (item :: rest) = item :: instructions rest := by
  simp [instructions, slot]

theorem mem_declaredNames {items : List Item} {name : Bytes} :
    name ∈ declaredNames items ↔ ∃ item ∈ items, item.declared? = some name := by
  simp [declaredNames]

theorem declaredNames_append (before after : List Item) :
    declaredNames (before ++ after) = declaredNames before ++ declaredNames after := by
  simp [declaredNames]

theorem declaredNames_cons_label {item : Item} {name : Bytes}
    (declares : item.declared? = some name) (rest : List Item) :
    declaredNames (item :: rest) = name :: declaredNames rest :=
  List.filterMap_cons_some declares

theorem declaredNames_cons_slot {item : Item} (slot : item.statement.isInstruction = true)
    (rest : List Item) : declaredNames (item :: rest) = declaredNames rest :=
  List.filterMap_cons_none (Item.slot_iff_undeclared.mp slot)

/-! ## The list of declarations -/

theorem declarations_cons_label {item : Item} {name : Bytes} (declares : item.declared? = some name)
    (address : Nat) (rest : List Item) :
    declarations address (item :: rest) = (name, (address : Int)) :: declarations address rest := by
  obtain ⟨pos, same⟩ := Item.declared?_eq_some declares
  simp only [declarations, same]

theorem declarations_cons_slot {item : Item} (slot : item.statement.isInstruction = true)
    (address : Nat) (rest : List Item) :
    declarations address (item :: rest) = declarations (address + 1) rest := by
  obtain ⟨lineNo, line, statement⟩ := item
  cases statement with
  | label name pos => cases slot
  | address target targetPos pos => rfl
  | compute c pos => rfl

theorem declarations_map_fst (address : Nat) (items : List Item) :
    (declarations address items).map Prod.fst = declaredNames items := by
  induction items generalizing address with
  | nil => rfl
  | cons item rest ih =>
    cases declares : item.declared? with
    | some name =>
      rw [declarations_cons_label declares, List.map_cons, ih, declaredNames_cons_label declares]
    | none =>
      have slot := Item.slot_iff_undeclared.mpr declares
      rw [declarations_cons_slot slot, ih, declaredNames_cons_slot slot]

theorem declarations_append (address : Nat) (before after : List Item) :
    declarations address (before ++ after) =
      declarations address before ++ declarations (address + (instructions before).length) after := by
  induction before generalizing address with
  | nil => rfl
  | cons item rest ih =>
    rw [List.cons_append]
    cases declares : item.declared? with
    | some name =>
      rw [declarations_cons_label declares, declarations_cons_label declares, ih,
        instructions_cons_label declares, List.cons_append]
    | none =>
      have slot := Item.slot_iff_undeclared.mpr declares
      rw [declarations_cons_slot slot, declarations_cons_slot slot, ih, instructions_cons_slot slot,
        List.length_cons, Nat.add_assoc, Nat.add_comm 1]

theorem DeclaredAt.cons_label {item : Item} {name : Bytes} (declares : item.declared? = some name)
    {rest : List Item} {other : Bytes} {address : Nat} :
    DeclaredAt (item :: rest) other address ↔
      (other = name ∧ address = 0) ∨ DeclaredAt rest other address := by
  constructor
  · rintro ⟨before, found, after, same, found_declares, count⟩
    cases before with
    | nil =>
      simp only [List.nil_append, List.cons.injEq] at same
      obtain ⟨rfl, -⟩ := same
      rw [declares, Option.some.injEq] at found_declares
      exact .inl ⟨found_declares.symm, by simpa using count.symm⟩
    | cons first before =>
      simp only [List.cons_append, List.cons.injEq] at same
      obtain ⟨rfl, rfl⟩ := same
      rw [instructions_cons_label declares] at count
      exact .inr ⟨before, found, after, rfl, found_declares, count⟩
  · rintro (⟨rfl, rfl⟩ | ⟨before, found, after, rfl, found_declares, count⟩)
    · exact ⟨[], item, rest, rfl, declares, rfl⟩
    · refine ⟨item :: before, found, after, rfl, found_declares, ?_⟩
      rw [instructions_cons_label declares, count]

theorem DeclaredAt.cons_slot {item : Item} (slot : item.statement.isInstruction = true)
    {rest : List Item} {name : Bytes} {address : Nat} :
    DeclaredAt (item :: rest) name address ↔
      ∃ fewer, address = fewer + 1 ∧ DeclaredAt rest name fewer := by
  have undeclared := Item.slot_iff_undeclared.mp slot
  constructor
  · rintro ⟨before, found, after, same, declares, count⟩
    cases before with
    | nil =>
      simp only [List.nil_append, List.cons.injEq] at same
      obtain ⟨rfl, -⟩ := same
      rw [undeclared] at declares
      cases declares
    | cons first before =>
      simp only [List.cons_append, List.cons.injEq] at same
      obtain ⟨rfl, rfl⟩ := same
      rw [instructions_cons_slot slot, List.length_cons] at count
      exact ⟨_, count.symm, before, found, after, rfl, declares, rfl⟩
  · rintro ⟨fewer, rfl, before, found, after, rfl, declares, count⟩
    refine ⟨item :: before, found, after, rfl, declares, ?_⟩
    rw [instructions_cons_slot slot, List.length_cons, count]

/-- The list holds exactly the declarations, each with the number of instructions before it. -/
theorem mem_declarations {start : Nat} {items : List Item} {name : Bytes} {address : Int} :
    (name, address) ∈ declarations start items ↔
      ∃ count, DeclaredAt items name count ∧ address = (start + count : Nat) := by
  induction items generalizing start with
  | nil => simp [declarations, DeclaredAt]
  | cons item rest ih =>
    cases declares : item.declared? with
    | some label =>
      rw [declarations_cons_label declares, List.mem_cons, ih, Prod.mk.injEq]
      simp only [DeclaredAt.cons_label declares]
      constructor
      · rintro (⟨rfl, rfl⟩ | ⟨count, declared, rfl⟩)
        · exact ⟨0, .inl ⟨rfl, rfl⟩, rfl⟩
        · exact ⟨count, .inr declared, rfl⟩
      · rintro ⟨count, ⟨rfl, rfl⟩ | declared, rfl⟩
        · exact .inl ⟨rfl, rfl⟩
        · exact .inr ⟨count, declared, rfl⟩
    | none =>
      have slot := Item.slot_iff_undeclared.mpr declares
      rw [declarations_cons_slot slot, ih]
      simp only [DeclaredAt.cons_slot slot]
      constructor
      · rintro ⟨count, declared, rfl⟩
        exact ⟨count + 1, ⟨count, rfl, declared⟩, by omega⟩
      · rintro ⟨_, ⟨count, rfl, declared⟩, rfl⟩
        exact ⟨count, declared, by omega⟩

theorem declaredAt_iff_mem {items : List Item} {name : Bytes} {address : Nat} :
    DeclaredAt items name address ↔ (name, (address : Int)) ∈ declarations 0 items := by
  rw [mem_declarations]
  constructor
  · intro declared
    exact ⟨address, declared, by rw [Nat.zero_add]⟩
  · intro ⟨count, declared, same⟩
    rw [Nat.zero_add, Int.natCast_inj] at same
    exact same ▸ declared

theorem DeclaredAt.le_length {items : List Item} {name : Bytes} {address : Nat}
    (declared : DeclaredAt items name address) : address ≤ (instructions items).length := by
  obtain ⟨before, item, after, rfl, -, rfl⟩ := declared
  rw [instructions_append, List.length_append]
  exact Nat.le_add_right _ _

/-! ## Names declared once -/

/-- In a table with one entry for each name, a name has the address it stands with. -/
theorem Symbols.find?_eq_some_iff {symbols : Symbols} (distinct : (symbols.map Prod.fst).Nodup)
    {name : Bytes} {address : Int} :
    symbols.find? name = some address ↔ (name, address) ∈ symbols := by
  induction symbols with
  | nil => simp [Symbols.find?]
  | cons entry rest ih =>
    obtain ⟨first, value⟩ := entry
    simp only [List.map_cons, List.nodup_cons, List.mem_map, Prod.exists, exists_and_right,
      exists_eq_right, not_exists] at distinct
    by_cases same : name = first
    · subst same
      have absent := distinct.1 address
      simp [Symbols.find?, absent, eq_comm]
    · have differ : (name == first) = false := by simpa using same
      rw [Symbols.find?, List.lookup_cons, differ, List.mem_cons, Prod.mk.injEq]
      simpa [same, Symbols.find?] using ih distinct.2

theorem declarations_distinct {items : List Item} (distinct : (declaredNames items).Nodup)
    (address : Nat) : ((declarations address items).reverse.map Prod.fst).Nodup := by
  rw [List.map_reverse, declarations_map_fst]
  exact List.nodup_reverse.mpr distinct

theorem find?_declarations {items : List Item} (distinct : (declaredNames items).Nodup)
    {name : Bytes} {address : Int} :
    Symbols.find? (declarations 0 items).reverse name = some address ↔
      ∃ count : Nat, DeclaredAt items name count ∧ address = count := by
  rw [Symbols.find?_eq_some_iff (declarations_distinct distinct 0), List.mem_reverse,
    mem_declarations]
  simp

theorem DeclaredAt.unique {items : List Item} (distinct : (declaredNames items).Nodup) {name : Bytes}
    {address address' : Nat} (declared : DeclaredAt items name address)
    (declared' : DeclaredAt items name address') : address = address' := by
  have first := (find?_declarations distinct).mpr ⟨address, declared, rfl⟩
  have second := (find?_declarations distinct).mpr ⟨address', declared', rfl⟩
  rw [first, Option.some.injEq, Int.natCast_inj] at second
  exact second

theorem addressOf?_eq_some {items : List Item} {name : Bytes} {address : Nat}
    (found : addressOf? items name = some address) : DeclaredAt items name address := by
  obtain ⟨i, index, rfl⟩ := Option.map_eq_some_iff.mp found
  obtain ⟨bound, declares, -⟩ := List.findIdx?_eq_some_iff_getElem.mp index
  refine ⟨items.take i, items[i], items.drop (i + 1), ?_, by simpa using declares, rfl⟩
  rw [List.getElem_cons_drop, List.take_append_drop]

theorem addressOf?_eq_some_iff {items : List Item} (distinct : (declaredNames items).Nodup)
    {name : Bytes} {address : Nat} :
    addressOf? items name = some address ↔ DeclaredAt items name address := by
  refine ⟨addressOf?_eq_some, fun declared => ?_⟩
  cases found : addressOf? items name with
  | none =>
    obtain ⟨before, item, after, rfl, declares, -⟩ := declared
    simp only [addressOf?, Option.map_eq_none_iff, List.findIdx?_eq_none_iff] at found
    simpa [declares] using found item (by simp)
  | some other => rw [DeclaredAt.unique distinct (addressOf?_eq_some found) declared]

/-! ## The indexing pass -/

theorem indexStep_slot {item : Item} (slot : item.statement.isInstruction = true)
    (state : Symbols × Nat) : indexStep state item = (state.1, state.2 + 1) := by
  obtain ⟨lineNo, line, statement⟩ := item
  cases statement with
  | label name pos => cases slot
  | address target targetPos pos => rfl
  | compute c pos => rfl

theorem indexStep_label {item : Item} {name : Bytes} (declares : item.declared? = some name)
    (state : Symbols × Nat) : indexStep state item = (state.1.set name state.2, state.2) := by
  obtain ⟨pos, same⟩ := Item.declared?_eq_some declares
  simp only [indexStep, same]

theorem Symbols.set_of_fresh {symbols : Symbols} {name : Bytes} (fresh : name ∉ symbols.map Prod.fst)
    (address : Int) : symbols.set name address = (name, address) :: symbols := by
  unfold Symbols.set
  congr 1
  apply List.filter_eq_self.mpr
  intro entry member
  have other : entry.1 ≠ name := fun same => fresh (same ▸ List.mem_map_of_mem member)
  simpa using other

/-- The walk of the indexing pass puts the declarations, the latest first, before what it had. -/
theorem foldl_indexStep {items : List Item} {symbols : Symbols}
    (distinct : (symbols.map Prod.fst).reverse ++ declaredNames items |>.Nodup) (address : Nat) :
    items.foldl indexStep (symbols, address) =
      ((declarations address items).reverse ++ symbols, address + (instructions items).length) := by
  induction items generalizing symbols address with
  | nil => simp [declarations]
  | cons item rest ih =>
    cases declares : item.declared? with
    | some name =>
      rw [declaredNames_cons_label declares] at distinct
      -- A name that is new to the table is put in front and replaces nothing.
      have fresh : name ∉ symbols.map Prod.fst := by
        intro member
        exact (List.nodup_append.mp distinct).2.2 name (List.mem_reverse.mpr member) name (by simp) rfl
      rw [List.foldl_cons, indexStep_label declares, Symbols.set_of_fresh fresh,
        ih (by simpa using distinct), declarations_cons_label declares,
        instructions_cons_label declares]
      simp
    | none =>
      have slot := Item.slot_iff_undeclared.mpr declares
      rw [declaredNames_cons_slot slot] at distinct
      rw [List.foldl_cons, indexStep_slot slot, ih distinct, declarations_cons_slot slot,
        instructions_cons_slot slot, List.length_cons]
      congr 1
      omega

theorem index_eq_declarations {items : List Item} (distinct : (declaredNames items).Nodup) :
    index items = (declarations 0 items).reverse := by
  rw [index, foldl_indexStep (by simpa using distinct), List.append_nil]

end HackMachine
