import HackMachine.Text.Bytes

/-! # The lines of texts put one under another

A visible text has printable ASCII bytes only, so it holds no line feed and no carriage return.  Visible
texts are the lines of what one gets by ending each with a line feed, or by putting one between any two
of them.  Behind a text that ends with a line feed the lines of another text go on.
-/

namespace HackMachine.Bytes

/-- A printable ASCII byte. -/
def IsVisible (b : UInt8) : Prop := byte ' ' ≤ b ∧ b ≤ byte '~'

instance (b : UInt8) : Decidable (IsVisible b) := inferInstanceAs (Decidable (_ ∧ _))

def Visible (text : Bytes) : Prop := ∀ b ∈ text, IsVisible b

instance (text : Bytes) : Decidable (Visible text) := List.decidableBAll IsVisible text

theorem Visible.append {text more : Bytes} (visible : Visible text) (visible' : Visible more) :
    Visible (text ++ more) := by
  intro b member
  rcases List.mem_append.mp member with member | member
  · exact visible b member
  · exact visible' b member

theorem Visible.unbroken {text : Bytes} (visible : Visible text) : newline ∉ text := by
  intro member
  exact absurd (visible newline member) (by decide)

theorem Visible.dropReturn_eq {text : Bytes} (visible : Visible text) : dropReturn text = text := by
  unfold dropReturn
  split
  · next returned =>
    have member : byte '\r' ∈ text := List.mem_of_getLast? (beq_iff_eq.mp returned)
    exact absurd (visible _ member) (by decide)
  · rfl

/-! ## Joined texts -/

@[simp] theorem join_singleton (separator text : Bytes) : join separator [text] = text := by
  simp [join]

theorem join_cons_cons (separator text second : Bytes) (more : List Bytes) :
    join separator (text :: second :: more) = text ++ (separator ++ join separator (second :: more)) := by
  simp [join]

theorem Visible.join {separator : Bytes} (between : Visible separator) {texts : List Bytes}
    (visible : ∀ text ∈ texts, Visible text) : Visible (join separator texts) := by
  induction texts with
  | nil => exact nofun
  | cons text more ih =>
    obtain ⟨first, others⟩ := List.forall_mem_cons.mp visible
    cases more with
    | nil => rwa [join_singleton]
    | cons second more =>
      rw [join_cons_cons]
      exact first.append (between.append (ih others))

/-! ## Cutting at line feeds -/

theorem lines_cons {b : UInt8} (other : b ≠ newline) {text line : Bytes} {more : List Bytes}
    (cut : lines text = line :: more) : lines (b :: text) = (b :: line) :: more := by
  rw [lines, List.foldr_cons, ← lines, cut]
  simp [other]

theorem lines_append_newline {text : Bytes} (unbroken : newline ∉ text) (rest : Bytes) :
    lines (text ++ newline :: rest) = text :: lines rest := by
  induction text with
  | nil => simp [lines]
  | cons b text ih =>
    rw [List.mem_cons, not_or] at unbroken
    exact lines_cons (Ne.symm unbroken.1) (ih unbroken.2)

theorem lines_unbroken {text : Bytes} (nonempty : text ≠ []) (unbroken : newline ∉ text) :
    lines text = [text] := by
  induction text with
  | nil => exact absurd rfl nonempty
  | cons b text ih =>
    rw [List.mem_cons, not_or] at unbroken
    cases text with
    | nil => simp [lines, Ne.symm unbroken.1]
    | cons c text => exact lines_cons (Ne.symm unbroken.1) (ih (List.cons_ne_nil c text) unbroken.2)

theorem lines_unlines {texts : List Bytes} (visible : ∀ text ∈ texts, Visible text) :
    lines (unlines texts) = texts := by
  induction texts with
  | nil => rfl
  | cons text more ih =>
    obtain ⟨first, others⟩ := List.forall_mem_cons.mp visible
    have ended : unlines (text :: more) = text ++ newline :: unlines more := by simp [unlines]
    rw [ended, lines_append_newline first.unbroken, ih others]

theorem lines_join {texts : List Bytes} (visible : ∀ text ∈ texts, Visible text)
    (nonempty : ∀ text ∈ texts, text ≠ []) : lines (join [newline] texts) = texts := by
  induction texts with
  | nil => rfl
  | cons text more ih =>
    obtain ⟨first, others⟩ := List.forall_mem_cons.mp visible
    obtain ⟨filled, fuller⟩ := List.forall_mem_cons.mp nonempty
    cases more with
    | nil => rw [join_singleton, lines_unbroken filled first.unbroken]
    | cons second more =>
      rw [join_cons_cons, List.singleton_append, lines_append_newline first.unbroken, ih others fuller]

/-- Texts one on each line; the last line may lack its line feed. -/
def stack (ended : Bool) (texts : List Bytes) : Bytes :=
  if ended then unlines texts else join [newline] texts

theorem lines_stack (ended : Bool) {texts : List Bytes} (visible : ∀ text ∈ texts, Visible text)
    (nonempty : ∀ text ∈ texts, text ≠ []) : lines (stack ended texts) = texts := by
  cases ended with
  | true => exact lines_unlines visible
  | false => exact lines_join visible nonempty

/-! ## Texts that end with a line feed -/

theorem lines_newline (text : Bytes) : lines (newline :: text) = [] :: lines text :=
  lines_append_newline List.not_mem_nil text

theorem exists_lines_append (text more : Bytes) :
    ∃ line rest, lines (text ++ [newline]) = line :: rest ∧
      lines (text ++ newline :: more) = line :: rest ++ lines more ∧
      (line :: rest).length = (text ++ [newline]).count newline := by
  induction text with
  | nil => exact ⟨[], [], lines_newline [], lines_newline more, rfl⟩
  | cons b text ih =>
    obtain ⟨line, rest, cut, cutMore, count⟩ := ih
    by_cases feed : b = newline
    · subst feed
      refine ⟨[], line :: rest, ?_, ?_, ?_⟩
      · rw [List.cons_append, lines_newline, cut]
      · rw [List.cons_append, lines_newline, cutMore]
        rfl
      · rw [List.cons_append, List.count_cons_self, ← count]
        rfl
    · refine ⟨b :: line, rest, lines_cons feed cut, lines_cons feed cutMore, ?_⟩
      rw [List.cons_append, List.count_cons_of_ne feed, ← count]
      rfl

theorem lines_append {text : Bytes} (ended : text.getLast? = some newline) (more : Bytes) :
    lines (text ++ more) = lines text ++ lines more := by
  obtain ⟨init, rfl⟩ := List.getLast?_eq_some_iff.mp ended
  obtain ⟨line, rest, cut, cutMore, -⟩ := exists_lines_append init more
  rw [List.append_assoc, cut]
  exact cutMore

theorem length_lines {text : Bytes} (ended : text.getLast? = some newline) :
    (lines text).length = text.count newline := by
  obtain ⟨init, rfl⟩ := List.getLast?_eq_some_iff.mp ended
  obtain ⟨line, rest, cut, -, count⟩ := exists_lines_append init []
  rw [cut, count]

end HackMachine.Bytes
