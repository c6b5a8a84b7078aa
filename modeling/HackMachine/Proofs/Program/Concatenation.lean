import HackMachine.Proofs.Program.Relocation
import HackMachine.Proofs.Source.Renumbering

/-! # One source behind another

The items of two sources in one text are those of the first and, with later line numbers, those of the
second.  Labels of the second program are then counted from the end of the first.  The combined program
is accepted exactly when these addresses fit where they are referred to (`valid_append_iff`), and its
opcodes are those of the two programs with the addresses of the second moved (`directOpcode_moved`).
-/

namespace HackMachine

theorem Relocation.declarations_item (r : Relocation) (address : Nat) (items : List Item) :
    declarations address (items.map r.item) = declarations address items := by
  induction items generalizing address with
  | nil => rfl
  | cons item rest ih =>
    rw [List.map_cons]
    cases declares : item.declared? with
    | some name =>
      have declares' : (r.item item).declared? = some name := by rw [r.declared?_item, declares]
      rw [declarations_cons_label declares, declarations_cons_label declares', ih]
    | none =>
      have slot := Item.slot_iff_undeclared.mpr declares
      have slot' : (r.item item).statement.isInstruction = true := by
        rw [Item.slot_iff_undeclared, r.declared?_item, declares]
      rw [declarations_cons_slot slot, declarations_cons_slot slot', ih]

theorem DeclaredAt.mem_declaredNames {items : List Item} {name : Bytes} {address : Nat}
    (declared : DeclaredAt items name address) : name ∈ declaredNames items := by
  obtain ⟨before, item, after, rfl, declares, -⟩ := declared
  exact HackMachine.mem_declaredNames.mpr ⟨item, by simp, declares⟩

theorem Relocation.declaredAt_item (r : Relocation) {items : List Item} {name : Bytes}
    {address : Nat} :
    DeclaredAt (items.map r.item) name address ↔ DeclaredAt items name address := by
  rw [declaredAt_iff_mem, declaredAt_iff_mem, r.declarations_item]

theorem DeclaredAt.append_iff {before after : List Item} {name : Bytes} {address : Nat} :
    DeclaredAt (before ++ after) name address ↔
      DeclaredAt before name address ∨
        ∃ count, DeclaredAt after name count ∧ address = (instructions before).length + count := by
  rw [declaredAt_iff_mem, declarations_append, List.mem_append, ← declaredAt_iff_mem, mem_declarations]
  simp only [Nat.zero_add, Int.natCast_inj]

theorem Valid.exists_find?_index {items : List Item} (valid : Valid items) {name : Bytes}
    (declared : name ∈ declaredNames items) : ∃ address, (index items).find? name = some address := by
  obtain ⟨item, member, declares⟩ := mem_declaredNames.mp declared
  obtain ⟨before, after, rfl⟩ := List.append_of_mem member
  exact ⟨_, valid.find?_index_iff.mpr ⟨_, ⟨before, item, after, rfl, declares, rfl⟩, rfl⟩⟩

theorem Valid.find?_index_eq_none {items : List Item} (valid : Valid items) {name : Bytes}
    (absent : name ∉ declaredNames items) : (index items).find? name = none := by
  rw [Option.eq_none_iff_forall_ne_some]
  intro address found
  obtain ⟨_, declared, -⟩ := valid.find?_index_iff.mp found
  exact absent declared.mem_declaredNames

/-- The label has an address, and there is room for it behind `count` instructions. -/
def Symbols.Reaches (symbols : Symbols) (count : Nat) (label : Bytes) : Prop :=
  ∃ address, symbols.find? label = some address ∧ address + count ≤ 32767

/-- Every label that one of the items refers to has room behind `count` instructions. -/
def Symbols.ReachesAll (symbols : Symbols) (count : Nat) (items : List Item) : Prop :=
  ∀ item ∈ items, ∀ name, item.referenced? = some name → symbols.Reaches count name

/-! ## Two valid programs -/

theorem resolvedIn_append {before : List Item} (valid : Valid before) (after : List Item) :
    ResolvedIn (before ++ after) before := by
  intro item member name refers
  obtain ⟨address, declared, range⟩ := valid.resolved item member name refers
  exact ⟨address, DeclaredAt.append_iff.mpr (.inl declared), range⟩

theorem reaches_iff {before after : List Item} (r : Relocation) (valid' : Valid after)
    (disjoint : ∀ name ∈ declaredNames before, name ∉ declaredNames after) {item : Item}
    (member : item ∈ after) {name : Bytes}
    (refers : item.referenced? = some name) :
    (index after).Reaches (instructions before).length name ↔
      ∃ address : Nat, DeclaredAt (before ++ after.map r.item) name address ∧
        (address : Int) ≤ immediateMax := by
  simp only [Symbols.Reaches, DeclaredAt.append_iff, r.declaredAt_item, valid'.find?_index_iff,
    immediateMax]
  constructor
  · intro reaches
    obtain ⟨_, ⟨count, declared, rfl⟩, range⟩ := reaches
    exact ⟨_, .inr ⟨count, declared, rfl⟩, by omega⟩
  · intro resolved
    obtain ⟨address, declared, range⟩ := resolved
    rcases declared with declared | ⟨count, declared, rfl⟩
    · -- The label is declared in the second program, so not in the first.
      obtain ⟨_, declared', -⟩ := valid'.resolved item member name refers
      exact absurd declared'.mem_declaredNames (disjoint name declared.mem_declaredNames)
    · exact ⟨count, ⟨count, declared, rfl⟩, by omega⟩

section

variable {before after : List Item} (r : Relocation) (valid : Valid before) (valid' : Valid after)
  (disjoint : ∀ name ∈ declaredNames before, name ∉ declaredNames after)

include valid valid' disjoint

theorem orderly_append : Orderly (before ++ after.map r.item) := by
  constructor
  · intro item member
    rcases List.mem_append.mp member with member | member
    · exact valid.fits item member
    · exact (r.valid_item_iff.mpr valid').fits item member
  · rw [declaredNames_append, r.declaredNames_item, List.nodup_append]
    refine ⟨valid.distinct, valid'.distinct, fun name declared other declared' same => ?_⟩
    exact disjoint name declared (same ▸ declared')

-- No name is in both tables, so looking up the first one first decides nothing.
theorem find?_index_append (name : Bytes) :
    (index (before ++ after.map r.item)).find? name =
      ((index before).find? name).or
        (((index after).find? name).map (· + ((instructions before).length : Int))) := by
  have distinct := (orderly_append r valid valid' disjoint).distinct
  ext address
  rw [index_eq_declarations distinct, find?_declarations distinct, Option.or_eq_some_iff,
    valid.find?_index_iff, Option.map_eq_some_iff]
  simp only [DeclaredAt.append_iff, r.declaredAt_item, valid'.find?_index_iff]
  constructor
  · intro ⟨count, declared, same⟩
    rcases declared with declared | ⟨behind, declared, rfl⟩
    · exact .inl ⟨count, declared, same⟩
    · refine .inr ⟨valid.find?_index_eq_none ?_, behind, ⟨behind, declared, rfl⟩, by omega⟩
      intro declared'
      exact disjoint name declared' declared.mem_declaredNames
  · intro declared
    rcases declared with ⟨count, declared, same⟩ | ⟨-, _, ⟨count, declared, rfl⟩, same⟩
    · exact ⟨count, .inl declared, same⟩
    · exact ⟨_, .inr ⟨count, declared, rfl⟩, by omega⟩

theorem valid_append_iff :
    Valid (before ++ after.map r.item) ↔
      (index after).ReachesAll (instructions before).length after := by
  constructor
  · intro whole item member name refers
    rw [reaches_iff r valid' disjoint member refers]
    refine whole.resolved (r.item item) ?_ name ((r.referenced?_item item).trans refers)
    exact List.mem_append_right _ (List.mem_map_of_mem member)
  · intro reaches
    obtain ⟨fits, distinct⟩ := orderly_append r valid valid' disjoint
    refine ⟨fits, distinct, fun item member name refers => ?_⟩
    rcases List.mem_append.mp member with member | member
    · exact resolvedIn_append valid (after.map r.item) item member name refers
    · obtain ⟨source, listed, rfl⟩ := List.mem_map.mp member
      rw [r.referenced?_item] at refers
      exact (reaches_iff r valid' disjoint listed refers).mp (reaches source listed name refers)

-- Nothing else can be wrong: both parts are orderly, and the first program keeps its addresses.
theorem firstViolation_append {left right : List Item} {item : Item} {ref : Reference}
    (cut : after = left ++ item :: right) (refers : item.reference? = some ref)
    (roomy : (index after).ReachesAll (instructions before).length left)
    (full : ¬ (index after).Reaches (instructions before).length ref.label) :
    FirstViolation (before ++ after.map r.item)
      ⟨r.place ref.pos, r.line ref.line, .labelRange ref.label⟩ := by
  obtain ⟨lineNo, pos, rfl⟩ := Item.reference?_eq_some refers
  have listed : ∀ other ∈ left, other ∈ after := by
    intro other member
    simp [cut, member]
  have member : ⟨lineNo, ref.line, .address (.label ref.label) ref.pos pos⟩ ∈ after := by simp [cut]
  have whole : before ++ after.map r.item = before ++ left.map r.item ++
      ⟨r.number lineNo, r.line ref.line,
        .address (.label ref.label) (r.place ref.pos) (r.place pos)⟩ :: right.map r.item := by
    rw [cut, List.map_append, List.map_cons, List.append_assoc]
    rfl
  have resolved : ResolvedIn (before ++ after.map r.item) (before ++ left.map r.item) := by
    intro other member name refers
    rcases List.mem_append.mp member with member | member
    · exact resolvedIn_append valid (after.map r.item) other member name refers
    · obtain ⟨source, found, rfl⟩ := List.mem_map.mp member
      rw [r.referenced?_item] at refers
      exact (reaches_iff r valid' disjoint (listed source found) refers).mp
        (roomy source found name refers)
  -- The label moves to the address that does not fit.
  obtain ⟨count, declared, -⟩ := valid'.resolved _ member ref.label rfl
  have moved : DeclaredAt (before ++ after.map r.item) ref.label
      ((instructions before).length + count) :=
    DeclaredAt.append_iff.mpr (.inr ⟨count, r.declaredAt_item.mpr declared, rfl⟩)
  have beyond : immediateMax < (((instructions before).length + count : Nat) : Int) := by
    by_contra low
    exact full ((reaches_iff r valid' disjoint member rfl).mpr ⟨_, moved, Int.not_lt.mp low⟩)
  exact .range (orderly_append r valid valid' disjoint) whole resolved moved beyond

end

/-! ## Opcodes -/

theorem directWord_congr {symbols symbols' : Symbols} {item : Item}
    (agree : ∀ name, item.referenced? = some name → symbols'.find? name = symbols.find? name) :
    directWord symbols' item.statement = directWord symbols item.statement := by
  obtain ⟨lineNo, line, statement⟩ := item
  cases statement with
  | label | compute => rfl
  | address target targetPos pos =>
    cases target with
    | value value => rfl
    | label name => simp only [directWord, agree name rfl]

theorem directOpcodes_append (symbols : Symbols) (before after : List Item) :
    directOpcodes symbols (before ++ after) =
      directOpcodes symbols before ++
        ((instructions after).zipIdx (instructions before).length).map
          fun (item, ip) => directOpcode symbols item ip := by
  simp [directOpcodes, List.zipIdx_append]

/-- The opcode `op` of `item`, `lines` lines and `count` instructions later. -/
structure Opcode.Moved (lines count : Nat) (item : Item) (op op' : Opcode) : Prop where
  line : op'.line = op.line + lines
  ip : op'.ip = op.ip + count
  text : op'.text = op.text
  link : op'.link = op.link
  /-- Exactly the words that hold the address of a label change. -/
  word : op'.word.toNat = op.word.toNat + if item.referenced?.isSome then count else 0

section

variable {before after : List Item} (valid : Valid before) (valid' : Valid after)
  (disjoint : ∀ name ∈ declaredNames before, name ∉ declaredNames after)

include valid valid' disjoint

theorem directOpcodes_first (r : Relocation) :
    directOpcodes (index (before ++ after.map r.item)) before = directOpcodes (index before) before := by
  refine List.map_congr_left fun (item, ip) member => ?_
  have listed : item ∈ before := List.mem_of_mem_filter (List.fst_mem_of_mem_zipIdx member)
  simp only [directOpcode]
  congr 1
  refine directWord_congr fun name refers => ?_
  obtain ⟨address, found, -, -⟩ := (valid.encodes listed).resolved name refers
  rw [find?_index_append r valid valid' disjoint, found, Option.some_or]

theorem directOpcode_moved {lines : Nat} {item : Item} (member : item ∈ after)
    (reaches : ∀ name, item.referenced? = some name →
      (index after).Reaches (instructions before).length name) (ip : Nat) :
    Opcode.Moved lines (instructions before).length item (directOpcode (index after) item ip)
      (directOpcode (index (before ++ after.map (Relocation.shift lines).item))
        ((Relocation.shift lines).item item) ((instructions before).length + ip)) := by
  have find? := find?_index_append (Relocation.shift lines) valid valid' disjoint
  refine
    { line := ?_
      ip := ?_
      text := (Relocation.shift lines).text_statement item.statement
      link := rfl
      word := ?_ }
  · change ((((item.lineNo : Int) + lines).toNat : Nat) : Int) = item.lineNo + lines
    omega
  · simp only [directOpcode]
    omega
  · change (directWord _ ((Relocation.shift lines).statement item.statement)).toNat =
      (directWord _ item.statement).toNat + _
    rw [Relocation.directWord_statement]
    cases refers : item.referenced? with
    | none =>
      have same : directWord (index (before ++ after.map (Relocation.shift lines).item)) item.statement =
          directWord (index after) item.statement := directWord_congr (by simp [refers])
      rw [same]
      rfl
    | some name =>
      obtain ⟨targetPos, pos, same⟩ := Item.referenced?_eq_some refers
      obtain ⟨address, found, low, high⟩ := (valid'.encodes member).resolved name refers
      obtain ⟨_, found', room⟩ := reaches name refers
      rw [found, Option.some.injEq] at found'
      subst found'
      -- The label of the second program is not one of the first.
      have fresh : (index before).find? name = none := by
        refine valid.find?_index_eq_none fun declared => ?_
        obtain ⟨_, declared', -⟩ := valid'.find?_index_iff.mp found
        exact disjoint name declared declared'.mem_declaredNames
      have word := toNat_lowWord low high
      have word' := @toNat_lowWord (address + (instructions before).length) (by omega) room
      simp only [same, directWord, find?, fresh, found,
        Option.none_or, Option.map_some, Option.getD_some, Option.isSome_some, if_true]
      omega

end

/-! ## Sources -/

/-- The program of two sources in one, where `items` are those of the second. -/
structure Program.Joined (lines : Nat) (items : List Item) (p q program : Program) : Prop where
  opcodes : ∃ moved, program.opcodes = p.opcodes ++ moved ∧ moved.length = q.opcodes.length ∧
    ∀ (i : Nat) (op op' : Opcode), q.opcodes[i]? = some op → moved[i]? = some op' →
      ∃ item, (instructions items)[i]? = some item ∧ Opcode.Moved lines p.words.length item op op'
  symbols : ∀ name, program.symbols.find? name =
    (p.symbols.find? name).or ((q.symbols.find? name).map (· + (p.words.length : Int)))
  distinct : (program.symbols.map Prod.fst).Nodup

/-- What becomes of two sources in one. -/
structure Concatenated (lines : Nat) (items : List Item) (p q : Program)
    (outcome : Except AssemblyError Program) : Prop where
  accepted_iff : (∃ program, outcome = .ok program) ↔ q.symbols.ReachesAll p.words.length items
  joined : ∀ program, outcome = .ok program → Program.Joined lines items p q program
  /-- The first reference without room is the one that is reported. -/
  refused : ∀ error, outcome = .error error → ∃ left item right ref,
    items = left ++ item :: right ∧ q.symbols.ReachesAll p.words.length left ∧
      item.reference? = some ref ∧ ¬ q.symbols.Reaches p.words.length ref.label ∧
      error = .validation
        ⟨{ ref.pos with line := ref.pos.line + lines }, ref.line, .labelRange ref.label⟩

theorem assemble_of_violation [Constant.Evaluator] {source : Bytes} {items : List Item} {d : Diagnostic}
    (parsed : parse source = .ok items) (violation : FirstViolation items d) :
    assemble source = .error (.validation d) := by
  simp only [assemble, parsed, validate_eq_error_iff.mpr violation]

theorem exists_first_unreached {symbols : Symbols} {count : Nat} {items : List Item}
    (unreached : ¬ symbols.ReachesAll count items) :
    ∃ left item right ref, items = left ++ item :: right ∧ symbols.ReachesAll count left ∧
      item.reference? = some ref ∧ ¬ symbols.Reaches count ref.label := by
  induction items with
  | nil => exact absurd (List.forall_mem_nil _) unreached
  | cons item rest ih =>
    by_cases here : ∀ name, item.referenced? = some name → symbols.Reaches count name
    · have later : ¬ symbols.ReachesAll count rest := fun reached =>
        unreached (List.forall_mem_cons.mpr ⟨here, reached⟩)
      obtain ⟨left, found, right, ref, rfl, reached, refers, full⟩ := ih later
      have reached' := List.forall_mem_cons.mpr ⟨here, reached⟩
      exact ⟨item :: left, found, right, ref, rfl, reached', refers, full⟩
    · simp only [not_forall] at here
      obtain ⟨name, refers, full⟩ := here
      rw [← Item.reference?_label, Option.map_eq_some_iff] at refers
      obtain ⟨ref, refers, rfl⟩ := refers
      exact ⟨[], item, rest, ref, rfl, List.forall_mem_nil _, refers, full⟩

theorem joined_of_reaches {before after : List Item} (valid : Valid before) (valid' : Valid after)
    (disjoint : ∀ name ∈ declaredNames before, name ∉ declaredNames after) {lines : Nat}
    (reaches : (index after).ReachesAll (instructions before).length after) :
    let whole := before ++ after.map (Relocation.shift lines).item
    Program.Joined lines after ⟨directOpcodes (index before) before, index before⟩
      ⟨directOpcodes (index after) after, index after⟩ ⟨directOpcodes (index whole) whole, index whole⟩ := by
  intro whole
  refine ⟨?_, fun name => ?_, ?_⟩
  · refine ⟨_, (directOpcodes_append _ _ _).trans
      (congrArg (· ++ _) (directOpcodes_first valid valid' disjoint _)), by simp [directOpcodes], ?_⟩
    intro i op op' found found'
    rw [getElem?_directOpcodes, Option.map_eq_some_iff] at found
    obtain ⟨item, listed, rfl⟩ := found
    have member : item ∈ after := List.mem_of_mem_filter (List.mem_of_getElem? listed)
    simp only [Relocation.instructions_item, List.getElem?_map, List.getElem?_zipIdx, listed,
      Option.map_some, Option.some.injEq] at found'
    subst found'
    refine ⟨item, listed, ?_⟩
    rw [length_words_direct]
    simpa using directOpcode_moved valid valid' disjoint member (reaches item member) i
  · rw [length_words_direct]
    exact find?_index_append _ valid valid' disjoint name
  · have distinct := (orderly_append (Relocation.shift lines) valid valid' disjoint).distinct
    exact index_eq_declarations distinct ▸ declarations_distinct distinct 0

/-- Concatenation is relocation: an accepted source behind another accepted one, with other labels, is
accepted exactly when its labels still have room, and then its program is moved to the end of the
first. -/
theorem concatenation_relocates [Constant.Evaluator] {first second : Bytes} {p q : Program}
    (ended : first.getLast? = some Bytes.newline) (assembled : assemble first = .ok p)
    (assembled' : assemble second = .ok q)
    (disjoint : ∀ name, p.symbols.find? name = none ∨ q.symbols.find? name = none) :
    ∃ items, parse second = .ok items ∧
      Concatenated (first.count Bytes.newline) items p q (assemble (first ++ second)) := by
  obtain ⟨before, parsed, valid, rfl⟩ := assemble_eq_ok_iff.mp assembled
  obtain ⟨after, parsed', valid', rfl⟩ := assemble_eq_ok_iff.mp assembled'
  let r := Relocation.shift (first.count Bytes.newline)
  have whole : parse (first ++ second) = .ok (before ++ after.map r.item) := by
    rw [parse_append ended, parsed, ok_bind, parsed', recast_ok]
  have apart : ∀ name ∈ declaredNames before, name ∉ declaredNames after := by
    intro name declared declared'
    obtain ⟨address, found⟩ := valid.exists_find?_index declared
    obtain ⟨address', found'⟩ := valid'.exists_find?_index declared'
    rcases disjoint name with absent | absent
    · rw [found] at absent
      cases absent
    · rw [found'] at absent
      cases absent
  refine ⟨after, parsed', ?_⟩
  have accepts := valid_append_iff r valid valid' apart
  by_cases reaches : (index after).ReachesAll (instructions before).length after
  · have accepted : assemble (first ++ second) =
        .ok ⟨directOpcodes (index (before ++ after.map r.item)) (before ++ after.map r.item),
          index (before ++ after.map r.item)⟩ :=
      assemble_eq_ok_iff.mpr ⟨_, whole, accepts.mpr reaches, rfl⟩
    rw [accepted]
    refine ⟨⟨fun _ => ?_, fun _ => ⟨_, rfl⟩⟩, ?_, nofun⟩
    · rw [length_words_direct]
      exact reaches
    · intro program same
      cases same
      exact joined_of_reaches valid valid' apart reaches
  · obtain ⟨left, item, right, ref, cut, roomy, refers, full⟩ := exists_first_unreached reaches
    have failed := assemble_of_violation whole
      (firstViolation_append r valid valid' apart cut refers roomy full)
    rw [failed]
    refine ⟨⟨nofun, fun reached => ?_⟩, nofun, ?_⟩
    · rw [length_words_direct] at reached
      exact absurd reached reaches
    · intro error same
      cases same
      refine ⟨left, item, right, ref, cut, ?_, refers, ?_, rfl⟩
      · rw [length_words_direct]
        exact roomy
      · rw [length_words_direct]
        exact full

theorem concatenation_relocates_second_loop :
    ∃ items program, parse (ascii "D = 1\nend:\nA := @end") = .ok items ∧
      assemble (ascii "top:\nA := @top\n" ++ ascii "D = 1\nend:\nA := @end") = .ok program ∧
      program.words = [0x0000#16, 0xefd0#16, 0x0002#16] ∧
      Program.Joined 2 items
        ⟨[⟨2, 0, ascii "A := @top", 0x0000#16, none⟩], [(ascii "top", 0)]⟩
        ⟨[⟨1, 0, ascii "D = 1", 0xefd0#16, none⟩, ⟨3, 1, ascii "A := @end", 0x0001#16, none⟩],
          [(ascii "end", 1)]⟩ program := by
  have disjoint : ∀ name, Symbols.find? [(ascii "top", 0)] name = none ∨
      Symbols.find? [(ascii "end", 1)] name = none := by
    intro name
    by_cases same : name = ascii "top"
    · subst same
      exact .inr (by decide)
    · exact .inl (by simp [Symbols.find?, List.lookup_cons, beq_false_of_ne same])
  have accepted : assemble (ascii "top:\nA := @top\n" ++ ascii "D = 1\nend:\nA := @end") =
      .ok ⟨[⟨2, 0, ascii "A := @top", 0x0000#16, none⟩, ⟨3, 1, ascii "D = 1", 0xefd0#16, none⟩,
          ⟨5, 2, ascii "A := @end", 0x0002#16, none⟩], [(ascii "end", 2), (ascii "top", 0)]⟩ := by
    decide +kernel
  have assembled : assemble (ascii "top:\nA := @top\n") =
      .ok ⟨[⟨2, 0, ascii "A := @top", 0x0000#16, none⟩], [(ascii "top", 0)]⟩ := by
    decide +kernel
  have assembled' : assemble (ascii "D = 1\nend:\nA := @end") =
      .ok ⟨[⟨1, 0, ascii "D = 1", 0xefd0#16, none⟩, ⟨3, 1, ascii "A := @end", 0x0001#16, none⟩],
        [(ascii "end", 1)]⟩ := by
    decide +kernel
  obtain ⟨items, parsed, concatenated⟩ :=
    concatenation_relocates (by decide) assembled assembled' disjoint
  exact ⟨items, _, parsed, accepted, rfl, concatenated.joined _ accepted⟩

end HackMachine
