import HackMachine.Program.Assembly
import HackMachine.Proofs.Program.Validity
import HackMachine.Proofs.Source.Columns

/-! # The passes resolve every label

For a valid program the three passes give the opcodes that one gets by encoding each instruction
with the complete table of addresses.  `drafts` are the opcodes of the emitting pass: where the label
of a reference is not yet declared, a placeholder stands, and linking turns a draft into the direct
opcode (`resolve_draft`).
-/

namespace HackMachine

/-- The word of an instruction when the address of every label is known. -/
def directWord (symbols : Symbols) : Statement → Word
  | .address (.value value) _ _ => lowWord value
  | .address (.label name) _ _ => lowWord ((symbols.find? name).getD 0)
  | .compute c _ => encodeCompute c.registers c.expr c.jump
  | .label _ _ => 0#16

def directOpcode (symbols : Symbols) (item : Item) (ip : Nat) : Opcode :=
  ⟨item.lineNo, ip, item.statement.text, directWord symbols item.statement, none⟩

/-- Each instruction encoded with the complete table. -/
def directOpcodes (symbols : Symbols) (items : List Item) : List Opcode :=
  (instructions items).zipIdx.map fun (item, ip) => directOpcode symbols item ip

/-- The opcode of an instruction when only the names in `known` are declared. -/
def draft (symbols : Symbols) (known : List Bytes) (item : Item) (ip : Nat) : Opcode :=
  match item.referenced? with
  | some name =>
    if known.contains name then directOpcode symbols item ip
    else { directOpcode symbols item ip with word := 0#16, link := some name }
  | none => directOpcode symbols item ip

/-- The opcodes of items behind `ip` instructions and the declarations of `known`. -/
def drafts (symbols : Symbols) (known : List Bytes) (ip : Nat) : List Item → List Opcode
  | [] => []
  | item :: rest =>
    match item.declared? with
    | some name => drafts symbols (name :: known) ip rest
    | none => draft symbols known item ip :: drafts symbols known (ip + 1) rest

/-- An item that fits, and whose label the table places where an instruction can name it. -/
structure Item.Encodes (symbols : Symbols) (item : Item) : Prop where
  fits : item.Fits
  resolved : ∀ name, item.referenced? = some name →
    ∃ address, symbols.find? name = some address ∧ 0 ≤ address ∧ address ≤ immediateMax

theorem Valid.find?_index_iff {items : List Item} (valid : Valid items) {name : Bytes}
    {address : Int} :
    (index items).find? name = some address ↔
      ∃ count : Nat, DeclaredAt items name count ∧ address = count := by
  rw [index_eq_declarations valid.distinct, find?_declarations valid.distinct]

theorem Valid.mem_index_iff {items : List Item} (valid : Valid items) {name : Bytes} {address : Nat} :
    (name, (address : Int)) ∈ index items ↔ DeclaredAt items name address := by
  rw [index_eq_declarations valid.distinct, List.mem_reverse, declaredAt_iff_mem]

theorem Valid.encodes {items : List Item} (valid : Valid items) {item : Item}
    (member : item ∈ items) : item.Encodes (index items) := by
  refine ⟨valid.fits item member, fun name refers => ?_⟩
  obtain ⟨count, declared, range⟩ := valid.resolved item member name refers
  exact ⟨count, valid.find?_index_iff.mpr ⟨count, declared, rfl⟩, by omega, range⟩

/-! ## Emitting -/

theorem msb_lowWord {value : Int} (low : 0 ≤ value) (high : value ≤ immediateMax) :
    (lowWord value).msb = false := by
  have small : value < 0x8000 := by simp only [immediateMax] at high; omega
  rw [lowWord, BitVec.msb_eq_false_iff_two_mul_lt, BitVec.toNat_ofInt]
  omega

theorem encodeAddress_lowWord {value : Int} (low : 0 ≤ value) (high : value ≤ immediateMax) :
    encodeAddress (lowWord value) = .ok (lowWord value) := by
  simp [encodeAddress, encodeAddress?, msb_lowWord low high]

theorem toNat_lowWord {value : Int} (low : 0 ≤ value) (high : value ≤ immediateMax) :
    ((lowWord value).toNat : Int) = value := by
  simp only [immediateMax] at high
  rw [lowWord, BitVec.toNat_ofInt]
  omega

theorem Emission.step_label {item : Item} {name : Bytes} (declares : item.declared? = some name)
    (symbols : Symbols) (e : Emission) :
    e.step symbols item = .ok { e with known := name :: e.known } := by
  obtain ⟨pos, same⟩ := Item.declared?_eq_some declares
  simp only [Emission.step, same]

theorem Emission.step_slot {symbols : Symbols} {item : Item}
    (slot : item.statement.isInstruction = true) (encodes : item.Encodes symbols) (e : Emission) :
    e.step symbols item =
      .ok { e with opcodes := draft symbols e.known item e.next :: e.opcodes, next := e.next + 1 } := by
  obtain ⟨fits, resolved⟩ := encodes
  obtain ⟨lineNo, line, statement⟩ := item
  cases statement with
  | label name pos => cases slot
  | address target targetPos pos =>
    cases target with
    | value value =>
      simp only [Emission.step, instructionWord, encodeAddress_lowWord fits.1 fits.2]
      rfl
    | label name =>
      obtain ⟨address, found, low, high⟩ := resolved name rfl
      simp only [Emission.step, instructionWord, draft, Item.referenced?]
      split
      · simp only [found, Option.getD_some, encodeAddress_lowWord low high, directOpcode, directWord]
        rfl
      · rfl
  | compute c pos => rfl

theorem foldlM_emission {symbols : Symbols} {items : List Item}
    (encodes : ∀ item ∈ items, item.Encodes symbols) (e : Emission) :
    items.foldlM (Emission.step symbols) e =
      .ok ⟨(declaredNames items).reverse ++ e.known,
        (drafts symbols e.known e.next items).reverse ++ e.opcodes,
        e.next + (instructions items).length⟩ := by
  induction items generalizing e with
  | nil => rfl
  | cons item rest ih =>
    have restEncodes : ∀ item ∈ rest, item.Encodes symbols :=
      fun item member => encodes item (List.mem_cons_of_mem _ member)
    rw [List.foldlM_cons]
    cases declares : item.declared? with
    | some name =>
      rw [Emission.step_label declares, ok_bind, ih restEncodes]
      simp [declaredNames_cons_label declares, instructions_cons_label declares, drafts, declares]
    | none =>
      have slot := Item.slot_iff_undeclared.mpr declares
      rw [Emission.step_slot slot (encodes item List.mem_cons_self), ok_bind, ih restEncodes]
      simp [declaredNames_cons_slot slot, instructions_cons_slot slot, drafts, declares,
        Nat.add_assoc, Nat.add_comm 1]

theorem emit_eq_drafts {symbols : Symbols} {items : List Item}
    (encodes : ∀ item ∈ items, item.Encodes symbols) :
    emit items symbols = .ok (drafts symbols [] 0 items) := by
  rw [emit, foldlM_emission encodes, ok_bind]
  simp

/-! ## Linking -/

theorem resolve_draft {symbols : Symbols} {item : Item} (encodes : item.Encodes symbols)
    (known : List Bytes) (ip : Nat) :
    (draft symbols known item ip).resolve symbols = .ok (directOpcode symbols item ip) := by
  have untouched : (directOpcode symbols item ip).resolve symbols =
    .ok (directOpcode symbols item ip) := rfl
  unfold draft
  split
  · next name refers =>
    split
    · exact untouched
    · -- A placeholder gets the word that it would have had with its label known.
      obtain ⟨address, found, low, high⟩ := encodes.resolved name refers
      have word : directWord symbols item.statement = lowWord address := by
        obtain ⟨targetPos, pos, same⟩ := Item.referenced?_eq_some refers
        simp [same, directWord, found]
      simp only [Opcode.resolve, found, encodeAddress_lowWord low high, ok_bind, directOpcode, word]
  · exact untouched

theorem mapM_resolve_drafts {symbols : Symbols} {items : List Item}
    (encodes : ∀ item ∈ items, item.Encodes symbols) (known : List Bytes) (ip : Nat) :
    (drafts symbols known ip items).mapM (Opcode.resolve symbols) =
      .ok (((instructions items).zipIdx ip).map fun (item, ip) => directOpcode symbols item ip) := by
  induction items generalizing known ip with
  | nil => rfl
  | cons item rest ih =>
    have restEncodes : ∀ item ∈ rest, item.Encodes symbols :=
      fun item member => encodes item (List.mem_cons_of_mem _ member)
    cases declares : item.declared? with
    | some name =>
      simp only [drafts, declares, instructions_cons_label declares]
      exact ih restEncodes (name :: known) ip
    | none =>
      have slot := Item.slot_iff_undeclared.mpr declares
      simp only [drafts, declares, instructions_cons_slot slot, List.mapM_cons,
        resolve_draft (encodes item List.mem_cons_self), ih restEncodes known (ip + 1)]
      rfl

theorem link_drafts {symbols : Symbols} {items : List Item}
    (encodes : ∀ item ∈ items, item.Encodes symbols) :
    link (drafts symbols [] 0 items) symbols = .ok (directOpcodes symbols items) :=
  mapM_resolve_drafts encodes [] 0

theorem resolveLabels_eq_direct {items : List Item} (valid : Valid items) :
    resolveLabels items = .ok ⟨directOpcodes (index items) items, index items⟩ := by
  have encodes : ∀ item ∈ items, item.Encodes (index items) := fun _ member => valid.encodes member
  simp only [resolveLabels, emit_eq_drafts encodes, link_drafts encodes, ok_bind]

/-- A source has a program exactly when its items are valid, and the program is the direct one. -/
theorem assemble_eq_ok_iff [Constant.Evaluator] {source : Bytes} {program : Program} :
    assemble source = .ok program ↔
      ∃ items, parse source = .ok items ∧ Valid items ∧
        program = ⟨directOpcodes (index items) items, index items⟩ := by
  unfold assemble
  cases parsed : parse source with
  | error diagnostic => simp
  | ok items =>
    cases validated : validate items with
    | error diagnostic =>
      have invalid : ¬ Valid items := by
        rw [← validate_eq_ok_iff, validated]
        exact nofun
      simp [validated, invalid]
    | ok accepted =>
      have valid : Valid items := validate_eq_ok_iff.mp validated
      simp [validated, resolveLabels_eq_direct valid, valid, eq_comm]

theorem getElem?_directOpcodes (symbols : Symbols) (items : List Item) (i : Nat) :
    (directOpcodes symbols items)[i]? = ((instructions items)[i]?).map (directOpcode symbols · i) := by
  rw [directOpcodes, List.getElem?_map, List.getElem?_zipIdx, Option.map_map]
  simp [Function.comp_def]

theorem directOpcodes_ip {symbols : Symbols} {items : List Item} {i : Nat} {op : Opcode}
    (found : (directOpcodes symbols items)[i]? = some op) : op.ip = i := by
  rw [getElem?_directOpcodes, Option.map_eq_some_iff] at found
  obtain ⟨item, -, rfl⟩ := found
  rfl

theorem words_direct (symbols : Symbols) (items : List Item) :
    Program.words ⟨directOpcodes symbols items, symbols⟩ =
      (instructions items).map fun item => directWord symbols item.statement := by
  refine List.ext_getElem (by simp [Program.words, directOpcodes]) fun i _ _ => ?_
  simp [Program.words, directOpcodes, directOpcode]

theorem length_words_direct (symbols : Symbols) (items : List Item) :
    (Program.words ⟨directOpcodes symbols items, symbols⟩).length = (instructions items).length := by
  rw [words_direct, List.length_map]

/-! ## Placeholders -/

theorem draft_link_iff {symbols : Symbols} {known : List Bytes} {item : Item} {ip : Nat}
    {name : Bytes} :
    (draft symbols known item ip).link = some name ↔ item.referenced? = some name ∧ name ∉ known := by
  unfold draft
  cases item.referenced? with
  | none => simp [directOpcode]
  | some label =>
    by_cases declared : label ∈ known
    · simp only [List.contains_iff_mem, declared, if_true, directOpcode, reduceCtorEq, false_iff,
        Option.some.injEq]
      rintro ⟨rfl, fresh⟩
      exact fresh declared
    · simp only [List.contains_iff_mem, declared, if_false, Option.some.injEq]
      exact ⟨fun same => ⟨same, same ▸ declared⟩, And.left⟩

theorem draft_place (symbols : Symbols) (known : List Bytes) (item : Item) (ip : Nat) :
    ((draft symbols known item ip).line, (draft symbols known item ip).ip,
      (draft symbols known item ip).text) = ((item.lineNo : Int), (ip : Int), item.statement.text) := by
  unfold draft
  split
  · split <;> rfl
  · rfl

theorem drafts_places (symbols : Symbols) (known : List Bytes) (ip : Nat) (items : List Item) :
    (drafts symbols known ip items).map (fun op => (op.line, op.ip, op.text)) =
      ((instructions items).zipIdx ip).map
        fun (item, ip) => ((item.lineNo : Int), (ip : Int), item.statement.text) := by
  induction items generalizing known ip with
  | nil => rfl
  | cons item rest ih =>
    cases declares : item.declared? with
    | some name =>
      simp only [drafts, declares, instructions_cons_label declares]
      exact ih (name :: known) ip
    | none =>
      have slot := Item.slot_iff_undeclared.mpr declares
      simp only [drafts, declares, instructions_cons_slot slot, List.map_cons, draft_place,
        ih known (ip + 1)]
      rfl

theorem length_drafts (symbols : Symbols) (known : List Bytes) (ip : Nat) (items : List Item) :
    (drafts symbols known ip items).length = (instructions items).length := by
  have same := congrArg List.length (drafts_places symbols known ip items)
  simpa using same

theorem exists_of_mem_drafts {symbols : Symbols} {known : List Bytes} {ip : Nat}
    {items : List Item} {op : Opcode} (member : op ∈ drafts symbols known ip items) :
    ∃ item ∈ items, ∃ known ip, op = draft symbols known item ip := by
  induction items generalizing known ip with
  | nil => cases member
  | cons item rest ih =>
    rw [drafts] at member
    split at member
    · obtain ⟨found, listed, drafted⟩ := ih member
      exact ⟨found, List.mem_cons_of_mem _ listed, drafted⟩
    · rcases List.mem_cons.mp member with rfl | member
      · exact ⟨item, List.mem_cons_self, known, ip, rfl⟩
      · obtain ⟨found, listed, drafted⟩ := ih member
        exact ⟨found, List.mem_cons_of_mem _ listed, drafted⟩

theorem drafts_append (symbols : Symbols) (known : List Bytes) (ip : Nat)
    (before after : List Item) :
    drafts symbols known ip (before ++ after) =
      drafts symbols known ip before ++
        drafts symbols ((declaredNames before).reverse ++ known)
          (ip + (instructions before).length) after := by
  induction before generalizing known ip with
  | nil => rfl
  | cons item rest ih =>
    rw [List.cons_append]
    cases declares : item.declared? with
    | some name =>
      simp [drafts, declares, ih, declaredNames_cons_label declares,
        instructions_cons_label declares]
    | none =>
      have slot := Item.slot_iff_undeclared.mpr declares
      simp [drafts, declares, ih, declaredNames_cons_slot slot, instructions_cons_slot slot,
        Nat.add_assoc, Nat.add_comm 1]

theorem getElem?_drafts {symbols : Symbols} {before after : List Item} {item : Item}
    (slot : item.statement.isInstruction = true) :
    (drafts symbols [] 0 (before ++ item :: after))[(instructions before).length]? =
      some (draft symbols (declaredNames before).reverse item (instructions before).length) := by
  have undeclared := Item.slot_iff_undeclared.mp slot
  rw [drafts_append, ← length_drafts symbols [] 0 before, List.getElem?_append_right (le_refl _)]
  simp [drafts, undeclared, length_drafts]

/-- A referenced label that is not declared before the reference is declared behind it. -/
theorem Valid.declared_before_or_after {before after : List Item} {item : Item}
    (valid : Valid (before ++ item :: after)) (slot : item.statement.isInstruction = true)
    {name : Bytes} (refers : item.referenced? = some name) :
    name ∉ declaredNames before ↔ name ∈ declaredNames after := by
  have names : declaredNames (before ++ item :: after) =
      declaredNames before ++ declaredNames after := by
    rw [declaredNames_append, declaredNames_cons_slot slot]
  have distinct := valid.distinct
  rw [names] at distinct
  obtain ⟨count, ⟨left, found, right, same, declares, -⟩, -⟩ :=
    valid.resolved item (by simp) name refers
  -- The label is declared somewhere, and not twice, so on exactly one side.
  have declared : name ∈ declaredNames before ++ declaredNames after := by
    rw [← names, same]
    exact mem_declaredNames.mpr ⟨found, by simp, declares⟩
  constructor
  · intro fresh
    exact (List.mem_append.mp declared).resolve_left fresh
  · intro later earlier
    exact (List.nodup_append.mp distinct).2.2 name earlier name later rfl

theorem link_untouched {symbols : Symbols} {emitted linked : List Opcode}
    (linking : link emitted symbols = .ok linked) {i : Nat} {op : Opcode}
    (found : emitted[i]? = some op) (closed : op.link = none) : linked[i]? = some op := by
  obtain ⟨length, each⟩ := List.forall₂_iff_get.mp (mapM_eq_ok_iff.mp linking)
  obtain ⟨bound, rfl⟩ := List.getElem?_eq_some_iff.mp found
  have resolved := each i bound (length ▸ bound)
  simp only [List.get_eq_getElem, Opcode.resolve, closed, Except.ok.injEq] at resolved
  rw [List.getElem?_eq_some_iff]
  exact ⟨length ▸ bound, resolved.symm⟩

/-! ## Direct resolution -/

/-- What the passes make of a program: the table of addresses, the emitted opcodes with their
placeholders, and the linked ones. -/
structure Resolved (items : List Item) (symbols : Symbols) (emitted linked : List Opcode) : Prop where
  /-- A name has one entry. -/
  distinct : (symbols.map Prod.fst).Nodup
  /-- The table holds the declared names, each with the number of instructions before it. -/
  addresses : ∀ name address, symbols.find? name = some address ↔
    ∃ count : Nat, DeclaredAt items name count ∧ address = count
  /-- There is one opcode for each instruction, in order, with its line, address and text. -/
  places : emitted.map (fun op => (op.line, op.ip, op.text)) =
    (instructions items).zipIdx.map
      fun (item, ip) => ((item.lineNo : Int), (ip : Int), item.statement.text)
  /-- An opcode waits for a label exactly when it refers to one declared later. -/
  placeholders : ∀ before item after, items = before ++ item :: after →
    item.statement.isInstruction = true →
    ∃ op, emitted[(instructions before).length]? = some op ∧
      ∀ name, op.link = some name ↔ item.referenced? = some name ∧ name ∈ declaredNames after
  /-- A label that is waited for has a name. -/
  named : ∀ op ∈ emitted, op.link ≠ some []
  /-- The linked opcodes are the instructions encoded with the complete table. -/
  direct : linked = directOpcodes symbols items
  /-- No opcode waits any more. -/
  closed : ∀ op ∈ linked, op.link = none
  /-- Opcodes that did not wait are unchanged. -/
  untouched : ∀ (i : Nat) (op : Opcode), emitted[i]? = some op → op.link = none → linked[i]? = some op
  /-- All references to a label get the same word. -/
  agree : ∀ name, ∃ word, ∀ (i : Nat) (item : Item), (instructions items)[i]? = some item →
    item.referenced? = some name → (linked[i]?).map (·.word) = some word
  /-- The word of a reference is the address of its label. -/
  words : ∀ (i : Nat) (item : Item), (instructions items)[i]? = some item →
    ∀ name address, item.referenced? = some name → DeclaredAt items name address →
      ∃ op, linked[i]? = some op ∧ op.word.toNat = address

theorem directOpcodes_word {symbols : Symbols} {items : List Item} {i : Nat} {item : Item}
    (found : (instructions items)[i]? = some item) :
    ((directOpcodes symbols items)[i]?).map (·.word) = some (directWord symbols item.statement) := by
  rw [getElem?_directOpcodes, found]
  rfl

/-- A reference loads the address of its label. -/
theorem Valid.toNat_directWord {items : List Item} (valid : Valid items) {item : Item}
    (member : item ∈ items) {name : Bytes} (refers : item.referenced? = some name) {address : Nat}
    (declared : DeclaredAt items name address) :
    (directWord (index items) item.statement).toNat = address := by
  obtain ⟨targetPos, pos, same⟩ := Item.referenced?_eq_some refers
  have found := valid.find?_index_iff.mpr ⟨address, declared, rfl⟩
  obtain ⟨other, found', low, high⟩ := (valid.encodes member).2 name refers
  obtain rfl := Option.some.inj (found'.symm.trans found)
  rw [same, directWord, found, Option.getD_some]
  exact Int.natCast_inj.mp (toNat_lowWord low high)

/-- The label passes of an accepted program resolve every label as if all addresses had been known
from the start, and validation checks the same addresses. -/
theorem passes_resolve_labels [Constant.Evaluator] {source : Bytes} {items : List Item}
    (parsed : parse source = .ok items) (validated : validate items = .ok ()) :
    (∃ walk, items.foldlM Walk.step {} = .ok walk ∧ walk.declared = index items) ∧
    ∃ emitted linked, emit items (index items) = .ok emitted ∧
      link emitted (index items) = .ok linked ∧ Resolved items (index items) emitted linked := by
  have valid := validate_eq_ok_iff.mp validated
  have encodes : ∀ item ∈ items, item.Encodes (index items) := fun _ member => valid.encodes member
  have linking := link_drafts encodes
  refine ⟨⟨_, walk_eq_ok_iff.mpr ⟨valid.fits, valid.distinct, rfl⟩, ?_⟩,
    drafts (index items) [] 0 items, directOpcodes (index items) items, emit_eq_drafts encodes,
    linking, ?_⟩
  · rw [index_eq_declarations valid.distinct]
    simp [Walk.behind]
  · refine
      { distinct := index_eq_declarations valid.distinct ▸ declarations_distinct valid.distinct 0
        addresses := fun name address => valid.find?_index_iff
        places := drafts_places (index items) [] 0 items
        placeholders := ?_
        named := ?_
        direct := rfl
        closed := ?_
        untouched := fun i op found closed => link_untouched linking found closed
        agree := ?_
        words := ?_ }
    · rintro before item after rfl slot
      refine ⟨_, getElem?_drafts slot, fun name => ?_⟩
      rw [draft_link_iff, List.mem_reverse]
      exact and_congr_right fun refers => valid.declared_before_or_after slot refers
    · -- A parsed name has a letter at least.
      intro op member waits
      obtain ⟨item, listed, known, ip, rfl⟩ := exists_of_mem_drafts member
      exact parse_referenced_ne_nil parsed listed (draft_link_iff.mp waits).1
    · intro op member
      obtain ⟨⟨item, ip⟩, -, rfl⟩ := List.mem_map.mp member
      rfl
    · intro name
      refine ⟨lowWord (((index items).find? name).getD 0), fun i item found refers => ?_⟩
      obtain ⟨targetPos, pos, same⟩ := Item.referenced?_eq_some refers
      rw [directOpcodes_word found, same, directWord]
    · intro i item found name address refers declared
      have member : item ∈ items := List.mem_of_mem_filter (List.mem_of_getElem? found)
      refine ⟨directOpcode (index items) item i, ?_, valid.toNat_directWord member refers declared⟩
      rw [getElem?_directOpcodes, found, Option.map_some]

theorem passes_resolve_labels_crossing :
    ∃ items emitted linked, parse (ascii "top:\nA := @end\nA := @top\nend:") = .ok items ∧
      emit items (index items) = .ok emitted ∧ link emitted (index items) = .ok linked ∧
      Resolved items (index items) emitted linked ∧ linked.map (·.word) = [0x0002#16, 0x0000#16] := by
  have parsed : parse (ascii "top:\nA := @end\nA := @top\nend:") =
      .ok [⟨1, ascii "top:", .label (ascii "top") ⟨1, 1, 5⟩⟩,
        ⟨2, ascii "A := @end", .address (.label (ascii "end")) ⟨2, 6, 10⟩ ⟨2, 1, 10⟩⟩,
        ⟨3, ascii "A := @top", .address (.label (ascii "top")) ⟨3, 6, 10⟩ ⟨3, 1, 10⟩⟩,
        ⟨4, ascii "end:", .label (ascii "end") ⟨4, 1, 5⟩⟩] := by
    decide +kernel
  obtain ⟨-, emitted, linked, emitting, linking, resolved⟩ :=
    passes_resolve_labels parsed (by decide +kernel)
  refine ⟨_, emitted, linked, parsed, emitting, linking, resolved, ?_⟩
  rw [resolved.direct]
  decide +kernel

end HackMachine
