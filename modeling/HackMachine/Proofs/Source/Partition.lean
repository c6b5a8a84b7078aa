import HackMachine.Proofs.Source.FirstLexeme

/-! # Lines cut into lexemes

`Partition` says how a line falls into blanks and lexemes that take all they can, without the steps of the
lexer.  It stops at the end, at a comment, or at a text without a lexeme.  Every line has such a partition
and the lexer follows it, so the tokens and the faults of a line are those of its partition
(`lexLine_partitions`).
-/

namespace HackMachine

/-! ## Partitions -/

/-- The text from `column` on falls into blanks and the tokens, up to `rest` at column `stop`. -/
inductive Partition (line : Nat) : Nat → Bytes → List Token → Nat → Bytes → Prop
  | done {column rest} : Partition line column rest [] column rest
  | blank {column stop b text tokens rest} : Bytes.isBlank b = true →
      Partition line (column + 1) text tokens stop rest → Partition line column (b :: text) tokens stop rest
  | token {column next stop lexeme text behind tokens rest} : Lexeme.Starts lexeme text behind →
      next = column + lexeme.written.length → Partition line next behind tokens stop rest →
      Partition line column text (⟨lexeme, ⟨line, (column : Nat), (next : Nat)⟩⟩ :: tokens) stop rest

/-- The end of the line, or a comment. -/
def Finished (rest : Bytes) : Prop := rest = [] ∨ ascii "//" <+: rest

theorem Pos.slice_append {line column next : Nat} {before word rest : Bytes}
    (columns : column = before.length + 1) (width : next = column + word.length) :
    Pos.slice (before ++ (word ++ rest)) ⟨line, column, next⟩ = word := by
  have skipped : ((column : Int) - 1).toNat = before.length := by omega
  have taken : ((next : Int) - column).toNat = word.length := by omega
  rw [Pos.slice, skipped, taken, List.drop_left, List.take_left]

namespace Partition

variable {line column stop : Nat} {text rest : Bytes} {tokens : List Token}

theorem column_add_length (partition : Partition line column text tokens stop rest) :
    column + text.length = stop + rest.length := by
  induction partition with
  | done => rfl
  | blank _ _ ih =>
    rw [← ih, List.length_cons]
    omega
  | token starts next _ ih =>
    rw [← ih, starts.cut, next, List.length_append, Nat.add_assoc]

/-- The lexer comes to the rest with the tokens found on the way. -/
theorem lexFrom_eq (partition : Partition line column text tokens stop rest) (found : List Token) :
    lexFrom line column found text = lexFrom line stop (tokens.reverse ++ found) rest := by
  induction partition generalizing found with
  | done => rfl
  | @blank column stop b text tokens rest isBlank _ ih =>
    have scanned : scan b text = .blank := by rw [scan, if_pos isBlank]
    rw [lexFrom, scanned]
    exact ih found
  | @token column next stop lexeme text behind tokens rest starts width _ ih =>
    obtain ⟨b, text, more, rfl, scanned, rfl, length⟩ := starts.scan
    have same : next = column + 1 + more := by omega
    subst same
    rw [lexFrom, scanned]
    dsimp only
    rw [ih]
    simp

theorem slice (partition : Partition line column text tokens stop rest) (before : Bytes)
    (columns : column = before.length + 1) :
    ∀ token ∈ tokens, token.pos.slice (before ++ text) = token.lexeme.written := by
  induction partition generalizing before with
  | done => simp
  | @blank column stop b text tokens rest _ _ ih =>
    have shifted := ih (before ++ [b]) (by simp [columns])
    rwa [List.append_assoc, List.singleton_append] at shifted
  | @token column next stop lexeme text behind tokens rest starts width _ ih =>
    refine List.forall_mem_cons.mpr ⟨?_, ?_⟩
    · rw [starts.cut]
      exact Pos.slice_append columns width
    · have shifted := ih (before ++ lexeme.written) (by rw [width, columns, List.length_append]; omega)
      rwa [List.append_assoc, ← starts.cut] at shifted

end Partition

/-! ## Where a partition stops -/

theorem Finished.lexFrom_eq {rest : Bytes} (finished : Finished rest) (line column : Nat)
    (found : List Token) : lexFrom line column found rest = .ok found.reverse := by
  rcases finished with rfl | ⟨behind, rfl⟩
  · rw [lexFrom]
  · have scanned : scan (byte '/') (byte '/' :: behind) = .comment := rfl
    change lexFrom line column found (byte '/' :: byte '/' :: behind) = _
    rw [lexFrom, scanned]

theorem StartsNothing.lexFrom_eq {rest : Bytes} (nothing : StartsNothing rest) (line column : Nat)
    (found : List Token) :
    lexFrom line column found rest = .error (⟨line, column, (column + 1 : Nat)⟩, .invalidCharacter) := by
  obtain ⟨b, more, rfl, -⟩ := nothing.solid
  rw [lexFrom, nothing.scan_eq]

theorem Unclosed.lexFrom_eq {rest : Bytes} (unclosed : Unclosed rest) (line column : Nat)
    (found : List Token) :
    lexFrom line column found rest =
      .error (⟨line, column, (column + rest.length : Nat)⟩, .unclosedConstant) := by
  obtain ⟨inner, rfl, never⟩ := unclosed
  have width : column + (ascii "$(" ++ inner).length = column + 1 + (inner.length + 1) := by
    have two : (ascii "$(").length = 2 := rfl
    rw [List.length_append]
    omega
  rw [width]
  change lexFrom line column found (byte '$' :: byte '(' :: inner) = _
  rw [lexFrom, scan_dollar, closing_eq_none_iff.mpr never]
  rfl

/-- Every text has a partition, and it stops for one of three reasons. -/
theorem exists_partition (line column : Nat) (text : Bytes) :
    ∃ tokens stop rest, Partition line column text tokens stop rest ∧
      (Finished rest ∨ StartsNothing rest ∨ Unclosed rest) := by
  cases text with
  | nil => exact ⟨[], column, [], .done, .inl (.inl rfl)⟩
  | cons b more =>
    cases scanned : scan b more with
    | blank =>
      obtain ⟨tokens, stop, rest, partition, reason⟩ := exists_partition line (column + 1) more
      exact ⟨tokens, stop, rest, .blank (isBlank_of_scan scanned) partition, reason⟩
    | comment => exact ⟨[], column, b :: more, .done, .inl (.inr (comment_of_scan scanned))⟩
    | lexeme lexeme taken =>
      obtain ⟨starts, -⟩ := starts_of_scan scanned
      obtain ⟨tokens, stop, rest, partition, reason⟩ :=
        exists_partition line (column + lexeme.written.length) (more.drop taken)
      exact ⟨_ :: tokens, stop, rest, .token starts rfl partition, reason⟩
    -- Nothing is cut from a text that the lexer refuses.
    | fault cause taken =>
      refine ⟨[], column, b :: more, .done, .inr ?_⟩
      exact stuck_of_scan scanned
termination_by text.length
decreasing_by
  · exact Nat.lt_succ_self _
  · rw [List.length_cons, List.length_drop]
    omega

section

variable {line stop : Nat} {text rest : Bytes} {tokens : List Token}
  (partition : Partition line 1 text tokens stop rest)

include partition

theorem lexLine_of_finished (finished : Finished rest) : lexLine line text = .ok tokens := by
  rw [lexLine, partition.lexFrom_eq, finished.lexFrom_eq, List.append_nil, List.reverse_reverse]

theorem lexLine_of_startsNothing (nothing : StartsNothing rest) :
    lexLine line text = .error (⟨line, stop, (stop + 1 : Nat)⟩, .invalidCharacter) := by
  rw [lexLine, partition.lexFrom_eq, nothing.lexFrom_eq]

theorem lexLine_of_unclosed (unclosed : Unclosed rest) :
    lexLine line text = .error (⟨line, stop, (text.length + 1 : Nat)⟩, .unclosedConstant) := by
  rw [lexLine, partition.lexFrom_eq, unclosed.lexFrom_eq, ← partition.column_add_length, Nat.add_comm 1]

end

-- The outcome determines why the partition of a line stops, because each reason has its own outcome.
theorem lexLine_eq_ok_iff {line : Nat} {text : Bytes} {tokens : List Token} :
    lexLine line text = .ok tokens ↔
      ∃ stop rest, Partition line 1 text tokens stop rest ∧ Finished rest := by
  constructor
  · intro lexed
    obtain ⟨tokens', stop, rest, partition, finished | nothing | unclosed⟩ := exists_partition line 1 text
    · cases lexed.symm.trans (lexLine_of_finished partition finished)
      exact ⟨stop, rest, partition, finished⟩
    · cases lexed.symm.trans (lexLine_of_startsNothing partition nothing)
    · cases lexed.symm.trans (lexLine_of_unclosed partition unclosed)
  · intro partitioned
    obtain ⟨stop, rest, partition, finished⟩ := partitioned
    exact lexLine_of_finished partition finished

theorem lexLine_eq_error_iff {line : Nat} {text : Bytes} {fault : Pos × Cause} :
    lexLine line text = .error fault ↔
      ∃ tokens stop rest, Partition line 1 text tokens stop rest ∧
        (StartsNothing rest ∧ fault = (⟨line, stop, (stop + 1 : Nat)⟩, .invalidCharacter) ∨
          Unclosed rest ∧ fault = (⟨line, stop, (text.length + 1 : Nat)⟩, .unclosedConstant)) := by
  constructor
  · intro lexed
    obtain ⟨tokens, stop, rest, partition, reason⟩ := exists_partition line 1 text
    refine ⟨tokens, stop, rest, partition, ?_⟩
    rcases reason with finished | nothing | unclosed
    · cases lexed.symm.trans (lexLine_of_finished partition finished)
    · cases lexed.symm.trans (lexLine_of_startsNothing partition nothing)
      exact .inl ⟨nothing, rfl⟩
    · cases lexed.symm.trans (lexLine_of_unclosed partition unclosed)
      exact .inr ⟨unclosed, rfl⟩
  · intro partitioned
    obtain ⟨tokens, stop, rest, partition, ⟨nothing, rfl⟩ | ⟨unclosed, rfl⟩⟩ := partitioned
    · exact lexLine_of_startsNothing partition nothing
    · exact lexLine_of_unclosed partition unclosed

/-! ## Layouts -/

/-- Lexemes with the blanks before them, of which only the first may have none, then blanks and
possibly a comment. -/
structure LineLayout where
  words : List (Bytes × Lexeme)
  trail : Bytes
  comment : Bytes
  wellFormed : ∀ word ∈ words, word.2.WellFormed
  blank : ∀ word ∈ words, ∀ b ∈ word.1, Bytes.isBlank b = true
  apart : ∀ word ∈ words.tail, word.1 ≠ []
  trail_blank : ∀ b ∈ trail, Bytes.isBlank b = true
  finished : Finished comment

namespace LineLayout

def lexemes (layout : LineLayout) : List Lexeme := layout.words.map (·.2)

/-- The line that is laid out. -/
def text (layout : LineLayout) : Bytes :=
  layout.words.flatMap (fun word => word.1 ++ word.2.written) ++ (layout.trail ++ layout.comment)

end LineLayout

/-- What follows is no part of a lexeme before it. -/
def Clear (rest : Bytes) : Prop :=
  ∀ b, rest.head? = some b → Bytes.isWord b = false ∧ b ≠ byte '='

theorem Clear.ends {rest : Bytes} (clear : Clear rest) (lexeme : Lexeme) : lexeme.Ends rest := by
  cases lexeme with
  | name | number => exact fun b head => (clear b head).1
  | constant => trivial
  | mark mark =>
    cases mark with
    | colon => exact fun equals => (clear _ equals).2 rfl
    | _ => trivial

theorem Finished.clear {rest : Bytes} (finished : Finished rest) : Clear rest := by
  rcases finished with rfl | ⟨behind, rfl⟩
  · nofun
  · rintro b ⟨⟩
    decide

theorem clear_of_isBlank {b : UInt8} {rest : Bytes} (blank : Bytes.isBlank b = true) :
    Clear (b :: rest) := by
  rintro _ ⟨⟩
  constructor
  · rw [← Bool.not_eq_true]
    intro word
    exact absurd blank (Bool.eq_false_iff.mp (Bytes.isBlank_eq_false word))
  · rintro rfl
    exact absurd blank (by decide)

theorem Clear.blanks {gap rest : Bytes} (blank : ∀ b ∈ gap, Bytes.isBlank b = true) (clear : Clear rest) :
    Clear (gap ++ rest) := by
  cases gap with
  | nil => exact clear
  | cons b gap => exact clear_of_isBlank (blank b List.mem_cons_self)

theorem Partition.blanks {line column stop : Nat} {gap text rest : Bytes} {tokens : List Token}
    (blank : ∀ b ∈ gap, Bytes.isBlank b = true)
    (partition : Partition line (column + gap.length) text tokens stop rest) :
    Partition line column (gap ++ text) tokens stop rest := by
  induction gap generalizing column with
  | nil => exact partition
  | cons b gap ih =>
    obtain ⟨first, others⟩ := List.forall_mem_cons.mp blank
    refine .blank first (ih others ?_)
    rwa [Nat.add_assoc, Nat.add_comm 1, ← List.length_cons]

theorem exists_partition_words {words : List (Bytes × Lexeme)} {trail comment : Bytes}
    (wellFormed : ∀ word ∈ words, word.2.WellFormed)
    (blank : ∀ word ∈ words, ∀ b ∈ word.1, Bytes.isBlank b = true)
    (apart : ∀ word ∈ words.tail, word.1 ≠ []) (trailing : ∀ b ∈ trail, Bytes.isBlank b = true)
    (finished : Finished comment) (line column : Nat) :
    ∃ tokens stop, lexemesOf tokens = words.map (·.2) ∧
      Partition line column (words.flatMap (fun word => word.1 ++ word.2.written) ++ (trail ++ comment))
        tokens stop comment := by
  induction words generalizing column with
  | nil =>
    rw [List.flatMap_nil, List.nil_append]
    exact ⟨[], _, rfl, .blanks trailing .done⟩
  | cons word words ih =>
    obtain ⟨gap, lexeme⟩ := word
    obtain ⟨formed, restFormed⟩ := List.forall_mem_cons.mp wellFormed
    obtain ⟨gapBlank, restBlank⟩ := List.forall_mem_cons.mp blank
    obtain ⟨tokens, stop, derived, partition⟩ :=
      ih restFormed restBlank (fun word member => apart word (List.mem_of_mem_tail member))
        (column + gap.length + lexeme.written.length)
    -- The next lexeme has a blank before it, and behind the last one comes the end.
    have clear : Clear (words.flatMap (fun word => word.1 ++ word.2.written) ++ (trail ++ comment)) := by
      cases words with
      | nil =>
        rw [List.flatMap_nil, List.nil_append]
        exact finished.clear.blanks trailing
      | cons word words =>
        obtain ⟨b, more, spaced⟩ := List.exists_cons_of_ne_nil (apart word List.mem_cons_self)
        rw [List.flatMap_cons, spaced]
        exact clear_of_isBlank (restBlank word List.mem_cons_self b (by simp [spaced]))
    refine ⟨⟨lexeme, ⟨line, (column + gap.length : Nat), (column + gap.length + lexeme.written.length : Nat)⟩⟩ ::
      tokens, stop, congrArg (lexeme :: ·) derived, ?_⟩
    rw [List.flatMap_cons, List.append_assoc, List.append_assoc]
    exact .blanks gapBlank (.token ⟨formed, rfl, clear.ends lexeme⟩ rfl partition)

/-- The lexer reads a line exactly as it falls into lexemes.  It fails exactly where the line goes on
with something that starts nothing or with a constant that is not closed, and it reads back every layout of
lexemes with blanks between them. -/
theorem lexLine_partitions (line : Nat) :
    (∀ text tokens, lexLine line text = .ok tokens ↔
      ∃ stop rest, Partition line 1 text tokens stop rest ∧ Finished rest) ∧
    (∀ text tokens, lexLine line text = .ok tokens →
      LaidOut line 1 (text.length + 1) tokens ∧
        ∀ token ∈ tokens, token.pos.slice text = token.lexeme.written) ∧
    (∀ text fault, lexLine line text = .error fault ↔
      ∃ tokens stop rest, Partition line 1 text tokens stop rest ∧
        (StartsNothing rest ∧ fault = (⟨line, stop, (stop + 1 : Nat)⟩, .invalidCharacter) ∨
          Unclosed rest ∧ fault = (⟨line, stop, (text.length + 1 : Nat)⟩, .unclosedConstant))) ∧
    ∀ layout : LineLayout, ∃ tokens, lexLine line layout.text = .ok tokens ∧
      lexemesOf tokens = layout.lexemes := by
  refine ⟨fun text tokens => lexLine_eq_ok_iff, fun text tokens lexed => ⟨lexLine_laidOut lexed, ?_⟩,
    fun text fault => lexLine_eq_error_iff, fun layout => ?_⟩
  · obtain ⟨stop, rest, partition, -⟩ := lexLine_eq_ok_iff.mp lexed
    exact partition.slice [] rfl
  · obtain ⟨tokens, stop, derived, partition⟩ := exists_partition_words layout.wellFormed layout.blank
      layout.apart layout.trail_blank layout.finished line 1
    exact ⟨tokens, lexLine_eq_ok_iff.mpr ⟨stop, layout.comment, partition, layout.finished⟩, derived⟩

theorem lexLine_partitions_nested :
    (∀ token ∈ [(⟨.name (ascii "A"), ⟨3, 1, 2⟩⟩ : Token), ⟨.mark .assign, ⟨3, 2, 4⟩⟩,
        ⟨.constant (ascii "f(1)//"), ⟨3, 4, 13⟩⟩],
      token.pos.slice (ascii "A:=$(f(1)//)//$(") = token.lexeme.written) ∧
    ∃ tokens stop rest, Partition 3 1 (ascii "x $(()") tokens stop rest ∧ Unclosed rest := by
  have lexed : lexLine 3 (ascii "A:=$(f(1)//)//$(") = .ok [⟨.name (ascii "A"), ⟨3, 1, 2⟩⟩,
      ⟨.mark .assign, ⟨3, 2, 4⟩⟩, ⟨.constant (ascii "f(1)//"), ⟨3, 4, 13⟩⟩] := by decide +kernel
  have failed : lexLine 3 (ascii "x $(()") = .error (⟨3, 3, 7⟩, .unclosedConstant) := by decide +kernel
  obtain ⟨-, placed, fails, -⟩ := lexLine_partitions 3
  refine ⟨(placed _ _ lexed).2, ?_⟩
  obtain ⟨tokens, stop, rest, partition, ⟨-, same⟩ | ⟨unclosed, -⟩⟩ := (fails _ _).mp failed
  · cases same
  · exact ⟨tokens, stop, rest, partition, unclosed⟩

end HackMachine
