import HackMachine.Proofs.Program.CanonicalText

/-! # Written outputs

The two texts that are written for a program, and how to read them.

* The words: each line of `Program.hackText` is sixteen binary digits, and their value is the word.
* The listing: each line of `Program.listingText` has the same digits, the text of the instruction, and
  behind its last semicolon the address and the labels in parentheses.  `shownLabels` reads those labels
  off the text of a line; they are the names of the address, in order and each once.
-/

namespace HackMachine

open Bytes

/-! ## Labels of a listing line -/

/-- What stands behind the last semicolon. -/
def behindSemicolon (line : Bytes) : Bytes := (line.reverse.takeWhile (· != byte ';')).reverse

/-- The texts behind opening parentheses, each up to a closing one. -/
def parenthesized : Bytes → List Bytes
  | [] => []
  | b :: rest =>
    if b = byte '(' then rest.takeWhile (· != byte ')') :: parenthesized rest else parenthesized rest

/-- The labels that a listing line shows. -/
def shownLabels (line : Bytes) : List Bytes := parenthesized (behindSemicolon line)

/-- Names in parentheses, as a listing line ends with them. -/
def labelNotes (names : List Bytes) : Bytes := names.flatMap fun name => ascii " (" ++ name ++ ascii ")"

theorem takeWhile_upTo {mark : UInt8} {text : Bytes} (bare : mark ∉ text) (rest : Bytes) :
    (text ++ mark :: rest).takeWhile (· != mark) = text := by
  have kept : ∀ b ∈ text, (b != mark) = true := by
    intro b member
    rw [bne_iff_ne]
    exact ne_of_mem_of_not_mem member bare
  rw [List.takeWhile_append_of_pos kept]
  simp

theorem behindSemicolon_append (text : Bytes) {comment : Bytes} (bare : byte ';' ∉ comment) :
    behindSemicolon (text ++ byte ';' :: comment) = comment := by
  have backwards : (text ++ byte ';' :: comment).reverse = comment.reverse ++ byte ';' :: text.reverse := by
    simp
  rw [behindSemicolon, backwards, takeWhile_upTo (by rwa [List.mem_reverse]), List.reverse_reverse]

theorem parenthesized_append {text : Bytes} (bare : byte '(' ∉ text) (rest : Bytes) :
    parenthesized (text ++ rest) = parenthesized rest := by
  induction text with
  | nil => rfl
  | cons b text ih =>
    rw [List.mem_cons, not_or] at bare
    rw [List.cons_append, parenthesized, if_neg (Ne.symm bare.1), ih bare.2]

theorem parenthesized_note {name : Bytes} (opens : byte '(' ∉ name) (closes : byte ')' ∉ name)
    (rest : Bytes) :
    parenthesized (ascii " (" ++ name ++ ascii ")" ++ rest) = name :: parenthesized rest := by
  have spelled : ascii " (" ++ name ++ ascii ")" ++ rest =
      byte ' ' :: byte '(' :: (name ++ byte ')' :: rest) := by
    simp [ascii]
  rw [spelled, parenthesized, if_neg (by decide), parenthesized, if_pos rfl,
    takeWhile_upTo closes, parenthesized_append opens, parenthesized, if_neg (by decide)]

theorem not_mem_of_isWord {text : Bytes} (word : ∀ b ∈ text, isWord b = true) {mark : UInt8}
    (other : isWord mark = false) : mark ∉ text := by
  intro member
  rw [word mark member] at other
  cases other

theorem parenthesized_labelNotes {names : List Bytes} (named : ∀ name ∈ names, IsName name) :
    parenthesized (labelNotes names) = names := by
  induction names with
  | nil => rfl
  | cons name names ih =>
    obtain ⟨first, others⟩ := List.forall_mem_cons.mp named
    have opens : byte '(' ∉ name := not_mem_of_isWord first.isWord (by decide)
    have closes : byte ')' ∉ name := not_mem_of_isWord first.isWord (by decide)
    rw [labelNotes, List.flatMap_cons, parenthesized_note opens closes, ← labelNotes, ih others]

/-- A semicolon is neither a parenthesis nor a byte of a name. -/
theorem labelNotes_bare {names : List Bytes} (named : ∀ name ∈ names, IsName name) :
    byte ';' ∉ labelNotes names := by
  intro member
  obtain ⟨name, listed, member⟩ := List.mem_flatMap.mp member
  have inside : byte ';' ∉ name := not_mem_of_isWord (named name listed).isWord (by decide)
  have around : byte ';' ∉ ascii " (" ∧ byte ';' ∉ ascii ")" := by decide
  simp only [List.mem_append, around, inside, or_self] at member

theorem labelNotes_visible {names : List Bytes} (named : ∀ name ∈ names, IsName name) :
    Visible (labelNotes names) := by
  intro b member
  obtain ⟨name, listed, member⟩ := List.mem_flatMap.mp member
  have visible : Visible (ascii " (" ++ name ++ ascii ")") :=
    .append (.append (by decide) (named name listed).visible) (by decide)
  exact visible b member

/-! ## Names at an address -/

namespace Symbols

theorem mem_namesAt {symbols : Symbols} {address : Int} {name : Bytes} :
    name ∈ symbols.namesAt address ↔ (name, address) ∈ symbols := by
  simp [namesAt]

theorem nodup_namesAt {symbols : Symbols} (distinct : (symbols.map Prod.fst).Nodup) (address : Int) :
    (symbols.namesAt address).Nodup := by
  have fewer : (symbols.filter (·.2 == address)).Sublist symbols := List.filter_sublist
  exact (List.mergeSort_perm _ _).nodup_iff.mpr (distinct.sublist (fewer.map Prod.fst))

theorem pairwise_namesAt (symbols : Symbols) (address : Int) :
    (symbols.namesAt address).Pairwise (· ≤ ·) := by
  have trans : ∀ a b c : Bytes, a.le b = true → b.le c = true → a.le c = true := by
    intro a b c
    simp only [Bytes.le, decide_eq_true_eq]
    exact List.le_trans
  have total : ∀ a b : Bytes, (a.le b || b.le a) = true := by
    intro a b
    simp only [Bytes.le, Bool.or_eq_true, decide_eq_true_eq]
    exact List.le_total a b
  have ordered := List.pairwise_mergeSort trans total ((symbols.filter (·.2 == address)).map (·.1))
  exact ordered.imp of_decide_eq_true

/-- The order in which a table holds its entries does not show. -/
theorem namesAt_eq_of_perm {symbols symbols' : Symbols} (same : symbols.Perm symbols') (address : Int) :
    symbols.namesAt address = symbols'.namesAt address := by
  have names : (symbols.namesAt address).Perm (symbols'.namesAt address) := by
    have listed := (same.filter (·.2 == address)).map (·.1)
    exact ((List.mergeSort_perm _ _).trans listed).trans (List.mergeSort_perm _ _).symm
  apply names.eq_of_pairwise _ (symbols.pairwise_namesAt address) (symbols'.pairwise_namesAt address)
  intro a b _ _ before behind
  exact List.le_antisymm before behind

end Symbols

/-! ## Words in binary -/

namespace Word

theorem length_binary (w : Word) : w.binary.length = 16 := Numeral.length_padded w.isLt

theorem mem_binary {w : Word} {b : UInt8} (member : b ∈ w.binary) : b = byte '0' ∨ b = byte '1' := by
  obtain ⟨value, small, rfl⟩ := Numeral.exists_digit_of_mem_padded (Nat.le_refl 2) member
  have each : ∀ v < 2, Numeral.digit v = byte '0' ∨ Numeral.digit v = byte '1' := by decide
  exact each value small

theorem valueOf_binary (w : Word) : Numeral.valueOf 2 w.binary = w.toNat :=
  Numeral.valueOf_padded (Nat.le_refl 2) (by decide) 16 w.toNat

/-- Sixteen binary digits of the value of a word. -/
structure IsBinary (text : Bytes) (w : Word) : Prop where
  length : text.length = 16
  digits : ∀ b ∈ text, b = byte '0' ∨ b = byte '1'
  value : Numeral.valueOf 2 text = w.toNat

theorem isBinary_binary (w : Word) : IsBinary w.binary w where
  length := w.length_binary
  digits _ member := mem_binary member
  value := w.valueOf_binary

theorem binary_visible (w : Word) : Visible w.binary :=
  Numeral.padded_visible (Nat.le_refl 2) (by decide) 16 w.toNat

end Word

/-! ## The lines of the two texts -/

/-- The address as a listing line shows it: digits behind spaces. -/
theorem mem_shownAddress {i : Nat} {b : UInt8}
    (member : b ∈ padLeft 4 (byte ' ') (Numeral.decimal i)) : b = byte ' ' ∨ isDigit b = true := by
  rw [padLeft, Numeral.decimal_natCast] at member
  rcases List.mem_append.mp member with filled | member
  · exact .inl (List.eq_of_mem_replicate filled)
  · exact .inr (Numeral.isDigit_of_mem_digits (by decide) (by decide) member)

theorem not_mem_shownAddress {mark : UInt8} (other : mark ≠ byte ' ') (noDigit : isDigit mark = false)
    (i : Nat) : mark ∉ padLeft 4 (byte ' ') (Numeral.decimal i) := by
  intro member
  rcases mem_shownAddress member with space | digit
  · exact other space
  · rw [noDigit] at digit
    cases digit

theorem shownAddress_visible (i : Nat) : Visible (padLeft 4 (byte ' ') (Numeral.decimal i)) := by
  intro b member
  rcases mem_shownAddress member with rfl | digit
  · decide
  · exact visible_of_isDigit digit

/-- Each visible byte is a code point. -/
theorem Utf8.count_eq_length {text : Bytes} (visible : Visible text) :
    Utf8.count text = text.length := by
  induction text with
  | nil => rfl
  | cons b rest ih =>
    obtain ⟨first, others⟩ := List.forall_mem_cons.mp visible
    have plain : b < 0x80 := UInt8.lt_of_le_of_lt first.2 (by decide)
    have alone : Utf8.following b rest = some 0 := if_pos plain
    show Utf8.countFrom ((Utf8.following b rest).getD 0) rest + 1 = rest.length + 1
    rw [alone]
    exact congrArg (· + 1) (ih others)

theorem padRight_eq {text : Bytes} (visible : Visible text) (width : Nat) :
    padRight width text = text ++ List.replicate (width - text.length) (byte ' ') := by
  rw [padRight, fill, Utf8.count_eq_length visible]

theorem padRight_visible {text : Bytes} (visible : Visible text) (width : Nat) :
    Visible (padRight width text) := by
  apply visible.append
  intro b member
  rw [List.eq_of_mem_replicate member]
  decide

namespace Program

/-- A program as its texts need it: opcodes at their addresses, visible texts, and a table with one entry
for each name. -/
structure Presentable (p : Program) : Prop where
  placed : ∀ (i : Nat) (op : Opcode), p.opcodes[i]? = some op → op.ip = i
  visible : ∀ op ∈ p.opcodes, Visible op.text
  named : ∀ name address, (name, address) ∈ p.symbols → IsName name
  distinct : (p.symbols.map Prod.fst).Nodup

theorem lines_hackText (p : Program) : lines p.hackText = p.binary :=
  lines_unlines (List.forall_mem_map.mpr fun w _ => w.binary_visible)

theorem take_listingLine (p : Program) (op : Opcode) : (p.listingLine op).take 16 = op.word.binary := by
  simp only [listingLine, List.append_assoc]
  exact List.take_left' op.word.length_binary

namespace Presentable

variable {p : Program} (ready : p.Presentable)

include ready

theorem isName_of_mem_labels (ip : Int) : ∀ name ∈ p.labels ip, IsName name := by
  intro name member
  exact ready.named name ip (Symbols.mem_namesAt.mp member)

section

variable {i : Nat} {op : Opcode} (found : p.opcodes[i]? = some op)

include found

theorem listingLine_eq :
    p.listingLine op = op.word.binary ++ ascii "  " ++ padRight 24 op.text ++ ascii "; " ++
      padLeft 4 (byte ' ') (Numeral.decimal i) ++ labelNotes (p.labels i) := by
  rw [listingLine, ready.placed i op found, labelNotes]

theorem listingLine_visible : Visible (p.listingLine op) := by
  have text := padRight_visible (ready.visible op (List.mem_of_getElem? found)) 24
  have notes := labelNotes_visible (ready.isName_of_mem_labels i)
  rw [ready.listingLine_eq found]
  exact .append (.append (.append (.append (.append op.word.binary_visible (by decide)) text)
    (by decide)) (shownAddress_visible i)) notes

theorem shownLabels_listingLine : shownLabels (p.listingLine op) = p.labels i := by
  have named := ready.isName_of_mem_labels i
  -- The text of an instruction may hold a semicolon; behind the one of the listing there is no other.
  have cut : p.listingLine op = (op.word.binary ++ ascii "  " ++ padRight 24 op.text) ++
      byte ';' :: (byte ' ' :: padLeft 4 (byte ' ') (Numeral.decimal i) ++ labelNotes (p.labels i)) := by
    rw [ready.listingLine_eq found]
    simp [ascii]
  have bare : byte ';' ∉ byte ' ' :: padLeft 4 (byte ' ') (Numeral.decimal i) ++ labelNotes (p.labels i) := by
    rw [List.cons_append, List.mem_cons, List.mem_append, not_or, not_or]
    exact ⟨by decide, not_mem_shownAddress (by decide) (by decide) i, labelNotes_bare named⟩
  have opens : byte '(' ∉ byte ' ' :: padLeft 4 (byte ' ') (Numeral.decimal i) :=
    List.not_mem_cons_of_ne_of_not_mem (by decide) (not_mem_shownAddress (by decide) (by decide) i)
  rw [shownLabels, cut, behindSemicolon_append _ bare, parenthesized_append opens,
    parenthesized_labelNotes named]

end

theorem lines_listingText : lines p.listingText = p.opcodes.map p.listingLine := by
  apply lines_unlines
  rw [List.forall_mem_map]
  intro op member
  obtain ⟨i, found⟩ := List.mem_iff_getElem?.mp member
  exact ready.listingLine_visible found

end Presentable

/-! ## Reading the texts back -/

/-- The text of the words has one line for each word: sixteen binary digits with its value. -/
structure WordsReadBack (p : Program) : Prop where
  count : (lines p.hackText).length = p.words.length
  ended : unlines (lines p.hackText) = p.hackText
  digits : ∀ line ∈ lines p.hackText, line.length = 16 ∧ ∀ b ∈ line, b = byte '0' ∨ b = byte '1'
  values : (lines p.hackText).map (Numeral.valueOf 2) = p.words.map BitVec.toNat

theorem wordsReadBack (p : Program) : p.WordsReadBack where
  count := by rw [p.lines_hackText, binary, List.length_map]
  ended := by rw [p.lines_hackText, hackText]
  digits := by
    rw [p.lines_hackText, binary, List.forall_mem_map]
    exact fun w _ => ⟨w.length_binary, fun b member => w.mem_binary member⟩
  values := by
    rw [p.lines_hackText, binary, List.map_map]
    exact List.map_congr_left fun w _ => w.valueOf_binary

/-- The line of the listing shows the label. -/
def ShownOn (p : Program) (name : Bytes) (i : Nat) : Prop :=
  ∃ line, (lines p.listingText)[i]? = some line ∧ name ∈ shownLabels line

/-- The line of a listing shows the opcode, the address `i` and exactly the labels that the items declare
there, each once and in order. -/
structure LineReadBack (items : List Item) (i : Nat) (op : Opcode) (line : Bytes) : Prop where
  shape : ∃ word address, Word.IsBinary word op.word ∧ Numeral.IsDecimal address i ∧
    line = word ++ ascii "  " ++ op.text ++ List.replicate (24 - op.text.length) (byte ' ') ++
      ascii "; " ++ List.replicate (4 - address.length) (byte ' ') ++ address ++
      labelNotes (shownLabels line)
  labels : ∀ name, name ∈ shownLabels line ↔ DeclaredAt items name i
  once : (shownLabels line).Nodup
  ordered : (shownLabels line).Pairwise (· ≤ ·)

/-- The listing has one line for each word, and shows each label where it is declared. -/
structure ListingReadBack (p : Program) (items : List Item) : Prop where
  count : (lines p.listingText).length = p.words.length
  ended : unlines (lines p.listingText) = p.listingText
  cut : unlines ((lines p.listingText).map (List.take 16)) = p.hackText
  shown : ∀ (i : Nat) (op : Opcode), p.opcodes[i]? = some op →
    ∃ line, (lines p.listingText)[i]? = some line ∧ LineReadBack items i op line
  within : ∀ name address, DeclaredAt items name address → address ≤ p.words.length
  below : ∀ name address, DeclaredAt items name address → address < p.words.length →
    ∃! i, p.ShownOn name i
  behind : ∀ name, DeclaredAt items name p.words.length → ∀ i, ¬ p.ShownOn name i
  /-- The order in which the table holds its entries does not show. -/
  unordered : ∀ symbols : Symbols, symbols.Perm p.symbols →
    listingText ⟨p.opcodes, symbols⟩ = p.listingText

theorem listingText_eq_of_perm (p : Program) {symbols : Symbols} (same : symbols.Perm p.symbols) :
    listingText ⟨p.opcodes, symbols⟩ = p.listingText := by
  have line : ∀ op, listingLine ⟨p.opcodes, symbols⟩ op = p.listingLine op := by
    intro op
    rw [listingLine, listingLine, labels, labels, Symbols.namesAt_eq_of_perm same]
  rw [listingText, listingText, funext line]

namespace Presentable

variable {p : Program} (ready : p.Presentable)

include ready

theorem getElem?_listing {i : Nat} {op : Opcode} (found : p.opcodes[i]? = some op) :
    (lines p.listingText)[i]? = some (p.listingLine op) := by
  rw [ready.lines_listingText, List.getElem?_map, found, Option.map_some]

theorem length_listing : (lines p.listingText).length = p.words.length := by
  rw [ready.lines_listingText, List.length_map, words, List.length_map]

theorem shownOn_iff {name : Bytes} {i : Nat} :
    p.ShownOn name i ↔ i < p.words.length ∧ (name, (i : Int)) ∈ p.symbols := by
  rw [← ready.length_listing]
  constructor
  · intro ⟨line, listed, shown⟩
    obtain ⟨bound, -⟩ := List.getElem?_eq_some_iff.mp listed
    rw [ready.lines_listingText, List.getElem?_map, Option.map_eq_some_iff] at listed
    obtain ⟨op, found, rfl⟩ := listed
    rw [ready.shownLabels_listingLine found] at shown
    exact ⟨bound, Symbols.mem_namesAt.mp shown⟩
  · intro ⟨bound, listed⟩
    rw [ready.lines_listingText, List.length_map] at bound
    have found := List.getElem?_eq_getElem bound
    refine ⟨_, ready.getElem?_listing found, ?_⟩
    rw [ready.shownLabels_listingLine found]
    exact Symbols.mem_namesAt.mpr listed

end Presentable

end Program

/-! ## Accepted sources -/

section

variable [Constant.Evaluator] {source : Bytes} {items : List Item}
  (parsed : parse source = .ok items) (valid : Valid items)

include parsed valid

theorem presentable_direct : Program.Presentable ⟨directOpcodes (index items) items, index items⟩ where
  placed _ _ found := directOpcodes_ip found
  visible op member := by
    obtain ⟨⟨item, ip⟩, numbered, rfl⟩ := List.mem_map.mp member
    have listed : item ∈ items := List.mem_of_mem_filter (List.fst_mem_of_mem_zipIdx numbered)
    exact Statement.text_visible (printable_of_valid parsed valid listed)
  named name address member := by
    rw [index_eq_declarations valid.distinct, List.mem_reverse, mem_declarations] at member
    obtain ⟨_, ⟨before, item, after, rfl, declares, -⟩, -⟩ := member
    exact parse_isName parsed (List.mem_append_right before List.mem_cons_self) (.inl declares)
  distinct := by
    rw [index_eq_declarations valid.distinct]
    exact declarations_distinct valid.distinct 0

theorem shownOn_direct {name : Bytes} {i : Nat} :
    Program.ShownOn ⟨directOpcodes (index items) items, index items⟩ name i ↔
      i < (instructions items).length ∧ DeclaredAt items name i := by
  rw [(presentable_direct parsed valid).shownOn_iff, length_words_direct, valid.mem_index_iff]

theorem lineReadBack_direct {i : Nat} {op : Opcode}
    (found : (directOpcodes (index items) items)[i]? = some op) :
    Program.LineReadBack items i op
      (Program.listingLine ⟨directOpcodes (index items) items, index items⟩ op) := by
  have ready := presentable_direct parsed valid
  have labels := ready.shownLabels_listingLine found
  constructor
  case shape =>
    refine ⟨_, _, op.word.isBinary_binary, Numeral.isDecimal_digits i, ?_⟩
    rw [labels, ready.listingLine_eq found, padRight_eq (ready.visible op (List.mem_of_getElem? found)),
      padLeft, fill, Numeral.decimal_natCast]
    simp only [List.append_assoc]
  case labels =>
    intro name
    rw [labels, Program.labels, Symbols.mem_namesAt, valid.mem_index_iff]
  case once =>
    rw [labels]
    exact Symbols.nodup_namesAt ready.distinct i
  case ordered =>
    rw [labels]
    exact Symbols.pairwise_namesAt _ i

theorem listingReadBack_direct :
    Program.ListingReadBack ⟨directOpcodes (index items) items, index items⟩ items := by
  have ready := presentable_direct parsed valid
  constructor
  case count => exact ready.length_listing
  case ended => rw [ready.lines_listingText, Program.listingText]
  case cut =>
    rw [ready.lines_listingText, List.map_map, Program.hackText, Program.binary, Program.words, List.map_map]
    exact congrArg unlines (List.map_congr_left fun op _ => Program.take_listingLine _ op)
  case shown =>
    intro i op found
    exact ⟨_, ready.getElem?_listing found, lineReadBack_direct parsed valid found⟩
  case within =>
    intro name address declared
    rw [length_words_direct]
    exact declared.le_length
  case below =>
    intro name address declared bound
    rw [length_words_direct] at bound
    refine ⟨address, (shownOn_direct parsed valid).mpr ⟨bound, declared⟩, ?_⟩
    intro i shown
    exact DeclaredAt.unique valid.distinct ((shownOn_direct parsed valid).mp shown).2 declared
  case behind =>
    intro name declared i shown
    rw [length_words_direct] at declared
    obtain ⟨bound, declared'⟩ := (shownOn_direct parsed valid).mp shown
    rw [DeclaredAt.unique valid.distinct declared' declared] at bound
    exact Nat.lt_irrefl _ bound
  case unordered =>
    intro symbols same
    exact Program.listingText_eq_of_perm _ same

end

/-- The words and the listing that are written for an accepted source can be read back from their texts. -/
theorem outputs_read_back [Constant.Evaluator] {source : Bytes} {program : Program}
    (assembled : assemble source = .ok program) :
    ∃ items, parse source = .ok items ∧ program.WordsReadBack ∧ program.ListingReadBack items := by
  obtain ⟨items, parsed, valid, rfl⟩ := assemble_eq_ok_iff.mp assembled
  exact ⟨items, parsed, Program.wordsReadBack _, listingReadBack_direct parsed valid⟩

/-- Two labels share an address, and a third stands behind the last instruction. -/
theorem outputs_read_back_shared_address :
    ∃ items program,
      assemble (ascii "loop:\nAgain: // top\nA := @stop\n0; jmp\nstop:\n") = .ok program ∧
      parse (ascii "loop:\nAgain: // top\nA := @stop\n0; jmp\nstop:\n") = .ok items ∧
      program.WordsReadBack ∧ program.ListingReadBack items ∧
      (∃! i, program.ShownOn (ascii "loop") i) ∧ (∃! i, program.ShownOn (ascii "Again") i) ∧
      ∀ i, ¬ program.ShownOn (ascii "stop") i := by
  have assembled : assemble (ascii "loop:\nAgain: // top\nA := @stop\n0; jmp\nstop:\n") =
      .ok ⟨[⟨3, 0, ascii "A := @stop", 0x0002#16, none⟩, ⟨4, 1, ascii "0; jmp", 0xea87#16, none⟩],
        [(ascii "stop", 2), (ascii "Again", 0), (ascii "loop", 0)]⟩ := by
    decide +kernel
  have addresses : (parse (ascii "loop:\nAgain: // top\nA := @stop\n0; jmp\nstop:\n")).map
      (fun items => [ascii "loop", ascii "Again", ascii "stop"].map (addressOf? items)) =
      .ok [some 0, some 0, some 2] := by
    decide +kernel
  obtain ⟨items, parsed, words, listing⟩ := outputs_read_back assembled
  rw [parsed] at addresses
  simp only [Except.map, List.map_cons, List.map_nil, Except.ok.injEq, List.cons.injEq] at addresses
  obtain ⟨loop, again, stop, -⟩ := addresses
  exact ⟨items, _, assembled, parsed, words, listing,
    listing.below _ 0 (addressOf?_eq_some loop) (by decide),
    listing.below _ 0 (addressOf?_eq_some again) (by decide),
    listing.behind _ (addressOf?_eq_some stop)⟩

end HackMachine
