import HackMachine.Proofs.Source.Renumbering
import HackMachine.Proofs.Source.Columns

/-! # Where statements and faults stand

Tokens that stand in order from one column to another keep everything that is read from them between
these columns.  Each reader of the parser has a lemma for the place of its fault (`..._error_spans`), and
those that give places a lemma for them (`..._places`).  Behind a part of the tokens the rest starts
later (`LaidOut.split`), which gives the order of the places of a computation.
-/

namespace HackMachine

theorem Pos.Spans.mono {pos : Pos} {low high low' high' : Nat} (spans : pos.Spans low high)
    (below : low' ≤ low) (above : high ≤ high') : pos.Spans low' high' := by
  obtain ⟨first, width, last⟩ := spans
  exact ⟨by omega, width, by omega⟩

namespace LaidOut

variable {line low high : Nat} {first token : Token} {left right rest more : List Token}

theorem split (laid : LaidOut line low high (left ++ right)) :
    ∃ middle, low ≤ middle ∧ (low ≤ high → middle ≤ high) ∧ LaidOut line low middle left ∧
      LaidOut line middle high right := by
  induction left generalizing low with
  | nil => exact ⟨low, le_refl low, id, .nil, laid⟩
  | cons token left ih =>
    cases laid with
    | cons first width last behind =>
      obtain ⟨middle, after, inside, laidLeft, laidRight⟩ := ih behind
      exact ⟨middle, (first.trans width.le).trans after, fun _ => inside last,
        .cons first width after laidLeft, laidRight⟩

/-- The tokens need no more room than from the start of the first to the end of the last. -/
theorem tight (laid : LaidOut line low high (first :: rest)) :
    ∃ start stop : Nat, spanFrom first rest = ⟨line, start, stop⟩ ∧ low ≤ start ∧ start < stop ∧
      stop ≤ high ∧ LaidOut line start stop (first :: rest) := by
  induction rest generalizing first low with
  | nil =>
    cases laid with
    | @cons _ _ start stop _ _ before width last _ =>
      exact ⟨start, stop, rfl, before, width, last, .cons (le_refl start) width (le_refl stop) .nil⟩
  | cons next rest ih =>
    cases laid with
    | @cons _ _ start stop lexeme _ before width last behind =>
      obtain ⟨start', stop', same, after, width', last', laid'⟩ := ih behind
      have ends : (spanFrom ⟨lexeme, ⟨line, start, stop⟩⟩ (next :: rest)).stop =
          (spanFrom next rest).stop := by
        simp [spanFrom, Pos.through, List.getLast?_cons]
      refine ⟨start, stop', ?_, before, by omega, last', ?_⟩
      · rw [Pos.mk.injEq]
        exact ⟨rfl, rfl, ends.trans (congrArg Pos.stop same)⟩
      · exact .cons (le_refl start) width (by omega) (laid'.mono after)

theorem spanFrom (laid : LaidOut line low high (first :: rest)) :
    (HackMachine.spanFrom first rest).Spans low high := by
  rw [← List.append_nil rest] at laid
  exact laid.spans

theorem head (laid : LaidOut line low high (token :: rest)) : token.pos.Spans low high := by
  cases laid with
  | cons before width last _ => exact ⟨by simpa using before, by simpa using width, by simpa using last⟩

theorem low_le_high (laid : LaidOut line low high (token :: rest)) : low ≤ high := by
  obtain ⟨before, width, last⟩ := laid.head
  omega

theorem widen {high' : Nat} (laid : LaidOut line low high rest) (above : high ≤ high') :
    LaidOut line low high' rest := by
  induction laid with
  | nil => exact .nil
  | cons before width last _ ih => exact .cons before width (last.trans above) (ih above)

-- Tokens behind a separator start at least one column behind everything before it.
theorem behind (laid : LaidOut line low high (left ++ token :: right)) :
    ∃ middle stop, low ≤ middle ∧ middle < stop ∧ stop ≤ high ∧ LaidOut line low middle left ∧
      token.pos.Spans middle stop ∧ LaidOut line stop high right := by
  obtain ⟨middle, after, -, laidLeft, laidRight⟩ := laid.split
  cases laidRight with
  | @cons _ _ start stop _ _ before width last rest =>
    exact ⟨middle, stop, after, by omega, last, laidLeft,
      ⟨by simpa using before, by simpa using width, by simp⟩, rest⟩

end LaidOut

/-- The place of an assignment is that of all its tokens. -/
theorem spanFrom_assign (register assign : Token) (rest : List Token) :
    spanFrom register (assign :: rest) =
      register.pos.through ((rest.getLast?.map (·.pos)).getD assign.pos) := by
  rw [spanFrom, List.getLast?_cons]
  cases rest.getLast? <;> rfl

/-! ## Parts of a line -/

section

variable {line low high : Nat} {tokens rest : List Token} {fault : Pos × Cause}

theorem endOfLine_error_spans (laid : LaidOut line low high tokens)
    (failed : endOfLine tokens = .error fault) : fault.1.Spans low high := by
  cases tokens with
  | nil => cases failed
  | cons token rest =>
    cases failed
    exact laid.spanFrom

theorem numberAt_error_place {text : Bytes} {pos : Pos} (failed : numberAt text pos = .error fault) :
    fault.1 = pos := by
  unfold numberAt at failed
  split at failed
  · cases failed
  · cases failed
    rfl

theorem parseTarget_error_spans [Constant.Evaluator] {assign : Pos} (here : assign.Spans low high)
    (laid : LaidOut line low high tokens) (failed : parseTarget assign tokens = .error fault) :
    fault.1.Spans low high := by
  unfold parseTarget at failed
  split at failed
  · cases failed
    exact here
  · rcases bind_eq_error_iff.mp failed with refused | ⟨_, _, same⟩
    · exact numberAt_error_place refused ▸ laid.head
    · cases same
  · -- The fault of a number behind a minus sign is at the number.
    rcases bind_eq_error_iff.mp failed with refused | ⟨_, _, same⟩
    · exact numberAt_error_place refused ▸ laid.rest.head
    · cases same
  · cases failed
  · cases failed
    exact laid.head
  · split at failed
    · cases failed
    · cases failed
      exact laid.head
  · cases failed
    exact laid.head

theorem registerAt?_span {x : Register} {pos : Pos} (read : registerAt? tokens = some (x, pos, rest)) :
    ∃ first more, tokens = first :: (more ++ rest) ∧ pos = spanFrom first more := by
  unfold registerAt? at read
  split at read
  · split at read
    · cases read
      exact ⟨_, [], rfl, rfl⟩
    · split at read
      · cases read
        exact ⟨_, [], rfl, rfl⟩
      · split at read
        · cases read
          exact ⟨_, [], rfl, rfl⟩
        · cases read
  · split at read
    · cases read
      exact ⟨_, [_], rfl, rfl⟩
    · cases read
  · cases read

theorem LaidOut.register {x : Register} {pos : Pos} (laid : LaidOut line low high tokens)
    (read : registerAt? tokens = some (x, pos, rest)) :
    ∃ middle, low ≤ middle ∧ middle ≤ high ∧ pos.Spans low middle ∧ LaidOut line middle high rest := by
  obtain ⟨first, more, rfl, rfl⟩ := registerAt?_span read
  have ordered := laid.low_le_high
  rw [← List.cons_append] at laid
  obtain ⟨middle, after, inside, laidRegister, laidRest⟩ := laid.split
  exact ⟨middle, after, inside ordered, laidRegister.spanFrom, laidRest⟩

theorem destinationsFrom_error_spans {found : List Destination} {first : Token}
    (laid : LaidOut line low high (first :: rest))
    (failed : destinationsFrom found first rest = .error fault) : fault.1.Spans low high := by
  -- The rest of the list starts at a later column, so the induction is over any `low`.
  fun_induction destinationsFrom found first rest generalizing low with
  | case1 found first rest unread =>
    cases failed
    exact laid.head
  | case2 => cases failed
  | case3 found first rest x pos found' separator read =>
    cases failed
    obtain ⟨middle, after, -, -, behind⟩ := laid.register read
    exact behind.head.mono after (le_refl high)
  | case4 found first rest x pos found' separator next more read comma _ =>
    rename_i ih
    obtain ⟨middle, after, -, -, behind⟩ := laid.register read
    exact (ih behind.rest failed).mono after (le_refl high)
  | case5 found first rest x pos separator next more read other =>
    cases failed
    obtain ⟨middle, after, -, -, behind⟩ := laid.register read
    exact behind.head.mono after (le_refl high)

/-- Each place ends at least one column before the later ones start. -/
def Apart (places : List Pos) : Prop := places.Pairwise fun pos later => pos.stop < later.start

theorem destinationsFrom_places {found destinations : List Destination} {first : Token}
    (laid : LaidOut line low high (first :: rest))
    (read : destinationsFrom found first rest = .ok destinations) :
    ∃ listed, destinations = found.reverse ++ listed ∧ Apart (listed.map (·.pos)) ∧
      ∀ d ∈ listed, d.pos.Spans low high := by
  fun_induction destinationsFrom found first rest generalizing low with
  | case1 => cases read
  | case2 found first rest x pos found' only =>
    cases read
    obtain ⟨middle, -, inside, spans, -⟩ := laid.register only
    refine ⟨[⟨x, pos⟩], by simp [found'], List.pairwise_singleton _ _, ?_⟩
    exact List.forall_mem_singleton.mpr (spans.mono (le_refl low) inside)
  | case3 => cases read
  | case4 found first rest x pos found' separator next more one comma _ =>
    rename_i ih
    obtain ⟨middle, after, inside, spans, behind⟩ := laid.register one
    -- The comma takes a column between this destination and the next.
    rw [← List.nil_append (separator :: _)] at behind
    obtain ⟨start, stop, reached, passed, -, -, -, others⟩ := behind.behind
    obtain ⟨listed, rfl, apart, each⟩ := ih others read
    refine ⟨⟨x, pos⟩ :: listed, by simp [found'], ?_, ?_⟩
    · refine List.pairwise_cons.mpr ⟨fun later member => ?_, apart⟩
      obtain ⟨d, listed', rfl⟩ := List.mem_map.mp member
      have ends := spans.stop_le
      have starts := (each d listed').low_le
      change pos.stop < d.pos.start
      omega
    · refine List.forall_mem_cons.mpr ⟨spans.mono (le_refl low) inside, fun d member => ?_⟩
      exact (each d member).mono (by omega) (le_refl high)
  | case5 => cases read

theorem parseDestinations_error_spans {equals : Pos} (here : equals.Spans low high)
    (laid : LaidOut line low high tokens) (failed : parseDestinations equals tokens = .error fault) :
    fault.1.Spans low high := by
  cases tokens with
  | nil =>
    cases failed
    exact here
  | cons first rest => exact destinationsFrom_error_spans laid failed

theorem parseJump_error_spans {semicolon : Pos} (here : semicolon.Spans low high)
    (laid : LaidOut line low high tokens) (failed : parseJump semicolon tokens = .error fault) :
    fault.1.Spans low high := by
  unfold parseJump at failed
  split at failed
  · cases failed
    exact here
  · split at failed
    · cases failed
    · cases failed
      exact laid.head
  · cases failed
    exact laid.head
  · cases failed
    exact laid.rest.spanFrom

theorem parseExpr_error_spans {anchor : Pos} (here : anchor.Spans low high)
    (laid : LaidOut line low high tokens) (failed : parseExpr anchor tokens = .error fault) :
    fault.1.Spans low high := by
  cases tokens with
  | nil =>
    cases failed
    exact here
  | cons first rest =>
    rw [parseExpr] at failed
    split at failed
    · cases failed
    · cases failed
      exact laid.spanFrom

theorem parseExpr_place {anchor pos : Pos} {e : Expr} (laid : LaidOut line low high tokens)
    (read : parseExpr anchor tokens = .ok (e, pos)) : pos.Spans low high := by
  cases tokens with
  | nil => cases read
  | cons first rest =>
    rw [parseExpr] at read
    split at read
    · cases read
      exact laid.spanFrom
    · cases read

/-! ## Statements -/

theorem parseRest_error_spans {whole anchor : Pos} {destinations : List Destination} {jump : Jump}
    (here : anchor.Spans low high) (laid : LaidOut line low high tokens)
    (failed : parseRest whole destinations jump anchor tokens = .error fault) :
    fault.1.Spans low high := by
  rcases bind_eq_error_iff.mp failed with refused | ⟨_, _, same⟩
  · exact parseExpr_error_spans here laid refused
  · cases same

theorem parseBody_error_spans {whole : Pos} {destinations : List Destination} {anchor : Option Pos}
    (around : whole.Spans low high) (here : ∀ pos ∈ anchor, pos.Spans low high)
    (laid : LaidOut line low high tokens)
    (failed : parseBody whole destinations anchor tokens = .error fault) : fault.1.Spans low high := by
  -- A missing expression is reported at the `=`; without one at the `;` or at the whole line.
  have anchored {pos : Pos} (other : pos.Spans low high) : (anchor.getD pos).Spans low high := by
    cases anchor with
    | none => exact other
    | some equals => exact here equals rfl
  unfold parseBody at failed
  split at failed
  · next body semicolon right cut =>
    rw [append_of_cutAt cut] at laid
    obtain ⟨middle, stop, after, passed, bounded, laidBody, atMark, laidJump⟩ := laid.behind
    have mark : semicolon.pos.Spans low high := atMark.mono after bounded
    rcases bind_eq_error_iff.mp failed with refused | ⟨_, _, refused⟩
    · exact parseJump_error_spans mark (laidJump.mono (by omega)) refused
    · exact parseRest_error_spans (anchored mark) (laidBody.widen (by omega)) refused
  · next body cut =>
    rw [append_of_cutAt cut, List.append_nil] at laid
    exact parseRest_error_spans (anchored around) laid failed

theorem parseCompute_error_spans {whole : Pos} (around : whole.Spans low high)
    (laid : LaidOut line low high tokens) (failed : parseCompute whole tokens = .error fault) :
    fault.1.Spans low high := by
  rw [parseCompute_eq_parseBody] at failed
  split at failed
  · next left equals right cut =>
    rw [append_of_cutAt cut] at laid
    obtain ⟨middle, stop, after, passed, bounded, laidList, atMark, laidBody⟩ := laid.behind
    have mark : equals.pos.Spans low high := atMark.mono after bounded
    rcases bind_eq_error_iff.mp failed with refused | ⟨_, _, refused⟩
    · exact parseDestinations_error_spans mark (laidList.widen (by omega)) refused
    · refine parseBody_error_spans around (fun pos same => ?_) (laidBody.mono (by omega)) refused
      cases same
      exact mark
  · next left cut =>
    rw [append_of_cutAt cut, List.append_nil] at laid
    exact parseBody_error_spans around (by simp) laid failed

theorem parseAddress_error_spans [Constant.Evaluator] {whole assign : Pos} (here : assign.Spans low high)
    (laid : LaidOut line low high tokens) (failed : parseAddress whole assign tokens = .error fault) :
    fault.1.Spans low high := by
  rcases bind_eq_error_iff.mp failed with refused | ⟨⟨target, place, rest⟩, read, ended⟩
  · exact parseTarget_error_spans here laid refused
  · obtain ⟨value, first, more, -, rfl, -, -⟩ := parseTarget_sound read
    rcases bind_eq_error_iff.mp ended with extra | ⟨_, _, same⟩
    · rw [← List.cons_append] at laid
      obtain ⟨middle, after, -, -, laidRest⟩ := laid.split
      exact (endOfLine_error_spans laidRest extra).mono after (le_refl high)
    · cases same

theorem parseTokens_error_spans [Constant.Evaluator] (laid : LaidOut line low high tokens)
    (failed : parseTokens tokens = .error fault) : fault.1.Spans low high := by
  unfold parseTokens at failed
  split at failed
  · cases failed
  · rcases bind_eq_error_iff.mp failed with extra | ⟨_, _, same⟩
    · exact endOfLine_error_spans laid.rest.rest extra
    · cases same
  · next name pos assign rest =>
    have whole := laid.spanFrom
    rw [spanFrom_assign] at whole
    split at failed
    · rcases bind_eq_error_iff.mp failed with refused | ⟨_, _, same⟩
      · exact parseAddress_error_spans laid.rest.head laid.rest.rest refused
      · cases same
    · rcases bind_eq_error_iff.mp failed with refused | ⟨_, _, same⟩
      · exact parseCompute_error_spans whole laid refused
      · cases same
  · rcases bind_eq_error_iff.mp failed with refused | ⟨_, _, same⟩
    · exact parseCompute_error_spans laid.spanFrom laid refused
    · cases same

/-- The places inside a statement, as they are written. -/
def Statement.inner : Statement → List Pos
  | .label _ _ => []
  | .address _ targetPos _ => [targetPos]
  | .compute c _ => c.destinations.map (·.pos) ++ [c.exprPos]

theorem Statement.mem_places_iff {statement : Statement} {pos : Pos} :
    pos ∈ statement.places ↔ pos = statement.pos ∨ pos ∈ statement.inner := by
  cases statement with
  | label | address => simp [places, inner, Statement.pos]
  | compute c whole =>
    simp only [places, inner, Statement.pos, List.mem_cons, List.mem_append, List.not_mem_nil, or_false]
    tauto

theorem parseRest_places {whole anchor : Pos} {destinations : List Destination} {jump : Jump}
    {statement : Statement} (laid : LaidOut line low high tokens)
    (read : parseRest whole destinations jump anchor tokens = .ok statement) :
    ∃ pos : Pos, pos.Spans low high ∧ statement.pos = whole ∧
      statement.inner = destinations.map (·.pos) ++ [pos] := by
  obtain ⟨⟨e, pos⟩, exprRead, same⟩ := bind_eq_ok_iff.mp read
  cases same
  exact ⟨pos, parseExpr_place laid exprRead, rfl, rfl⟩

theorem parseBody_places {whole : Pos} {destinations : List Destination} {anchor : Option Pos}
    {statement : Statement} (laid : LaidOut line low high tokens)
    (read : parseBody whole destinations anchor tokens = .ok statement) :
    ∃ pos : Pos, pos.Spans low high ∧ statement.pos = whole ∧
      statement.inner = destinations.map (·.pos) ++ [pos] := by
  unfold parseBody at read
  split at read
  · next body semicolon right cut =>
    rw [append_of_cutAt cut] at laid
    obtain ⟨middle, stop, after, passed, bounded, laidBody, -, -⟩ := laid.behind
    obtain ⟨jump, -, bodyRead⟩ := bind_eq_ok_iff.mp read
    exact parseRest_places (laidBody.widen (by omega)) bodyRead
  · next body cut =>
    rw [append_of_cutAt cut, List.append_nil] at laid
    exact parseRest_places laid read

theorem parseCompute_places {whole : Pos} {statement : Statement} (laid : LaidOut line low high tokens)
    (read : parseCompute whole tokens = .ok statement) :
    statement.pos = whole ∧ Apart statement.inner ∧ ∀ pos ∈ statement.inner, pos.Spans low high := by
  rw [parseCompute_eq_parseBody] at read
  split at read
  · next left equals right cut =>
    rw [append_of_cutAt cut] at laid
    obtain ⟨middle, stop, after, passed, bounded, laidList, -, laidBody⟩ := laid.behind
    obtain ⟨destinations, listRead, bodyRead⟩ := bind_eq_ok_iff.mp read
    obtain ⟨pos, spans, around, inner⟩ := parseBody_places laidBody bodyRead
    cases left with
    | nil => cases listRead
    | cons first rest =>
      obtain ⟨listed, rfl, apart, each⟩ := destinationsFrom_places laidList listRead
      rw [inner]
      -- The destinations end before the `=`, and the expression starts behind it.
      refine ⟨around, List.pairwise_append.mpr ⟨apart, List.pairwise_singleton _ _, ?_⟩, ?_⟩
      · intro place member last onlyLast
        obtain rfl := List.mem_singleton.mp onlyLast
        obtain ⟨d, listed', rfl⟩ := List.mem_map.mp member
        have ends := (each d listed').stop_le
        have starts := spans.low_le
        omega
      · intro place member
        rcases List.mem_append.mp member with member | member
        · obtain ⟨d, listed', rfl⟩ := List.mem_map.mp member
          exact (each d listed').mono (le_refl low) (by omega)
        · obtain rfl := List.mem_singleton.mp member
          exact spans.mono (by omega) (le_refl high)
  · next left cut =>
    rw [append_of_cutAt cut, List.append_nil] at laid
    obtain ⟨pos, spans, around, inner⟩ := parseBody_places laid read
    rw [inner]
    exact ⟨around, List.pairwise_singleton _ _, List.forall_mem_singleton.mpr spans⟩

theorem parseTokens_places [Constant.Evaluator] {first : Token} {statement : Statement}
    (laid : LaidOut line low high (first :: rest))
    (read : parseTokens (first :: rest) = .ok (some statement)) :
    statement.pos = spanFrom first rest ∧ Apart statement.inner ∧
      ∀ pos ∈ statement.inner, pos.Spans low high := by
  unfold parseTokens at read
  split at read
  · next none => cases none
  · next name pos colon behind same =>
    cases same
    obtain ⟨⟨⟩, empty, same⟩ := bind_eq_ok_iff.mp read
    obtain rfl := endOfLine_eq_ok_iff.mp empty
    cases same
    exact ⟨rfl, .nil, by simp [Statement.inner]⟩
  · next name pos assign behind same =>
    cases same
    rw [spanFrom_assign]
    split at read
    · obtain ⟨found, addressRead, same⟩ := bind_eq_ok_iff.mp read
      cases same
      obtain ⟨⟨target, place, extra⟩, targetRead, ended⟩ := bind_eq_ok_iff.mp addressRead
      obtain ⟨⟨⟩, -, same⟩ := bind_eq_ok_iff.mp ended
      cases same
      obtain ⟨value, operand, more, -, rfl, -, rfl⟩ := parseTarget_sound targetRead
      exact ⟨rfl, List.pairwise_singleton _ _, List.forall_mem_singleton.mpr laid.rest.rest.spans⟩
    · obtain ⟨found, computeRead, same⟩ := bind_eq_ok_iff.mp read
      cases same
      exact parseCompute_places laid computeRead
  · next same =>
    cases same
    obtain ⟨found, computeRead, same⟩ := bind_eq_ok_iff.mp read
    cases same
    exact parseCompute_places laid computeRead

/-- The places inside a statement are parts of its own, in the order written and without touching. -/
structure Statement.Nested (statement : Statement) : Prop where
  within : ∀ pos ∈ statement.inner, statement.pos.start ≤ pos.start ∧ pos.stop ≤ statement.pos.stop
  apart : Apart statement.inner

-- The bounds of the tokens are those of the statement once nothing is left around them.
theorem parseTokens_nested [Constant.Evaluator] {statement : Statement}
    (laid : LaidOut line low high tokens) (read : parseTokens tokens = .ok (some statement)) :
    statement.Nested := by
  cases tokens with
  | nil => cases read
  | cons first rest =>
    obtain ⟨start, stop, same, -, -, -, tight⟩ := laid.tight
    obtain ⟨whole, apart, inside⟩ := parseTokens_places tight read
    refine ⟨fun pos member => ?_, apart⟩
    rw [whole, same]
    exact ⟨(inside pos member).low_le, (inside pos member).stop_le⟩

theorem parseTokens_spans [Constant.Evaluator] {statement : Statement} {pos : Pos}
    (laid : LaidOut line low high tokens)
    (read : parseTokens tokens = .ok (some statement)) (member : pos ∈ statement.places) :
    pos.Spans low high := by
  cases tokens with
  | nil => cases read
  | cons first rest =>
    obtain ⟨whole, -, inside⟩ := parseTokens_places laid read
    rcases Statement.mem_places_iff.mp member with rfl | inner
    · rw [whole]
      exact laid.spanFrom
    · exact inside pos inner

end

/-! ## Lines -/

theorem lexFrom_error_spans {line column : Nat} {found : List Token} {text : Bytes}
    {fault : Pos × Cause} (failed : lexFrom line column found text = .error fault) :
    fault.1.Spans column (column + text.length) := by
  fun_induction lexFrom line column found text with
  | case1 => cases failed
  | case2 column found b rest blank ih =>
    exact (ih failed).mono (by omega) (by simp only [List.length_cons]; omega)
  | case3 => cases failed
  | case4 column found b rest lexeme taken scanned next ih =>
    have inside := scan_lexeme_le scanned
    refine (ih failed).mono (by omega) ?_
    simp only [next, List.length_drop, List.length_cons]
    omega
  | case5 column found b rest cause taken scanned =>
    cases failed
    have inside := scan_fault_le scanned
    refine ⟨Int.le_refl column, ?_, ?_⟩
    · change (column : Int) < (column + 1 + taken : Nat)
      omega
    · change ((column + 1 + taken : Nat) : Int) ≤ (column + (b :: rest).length : Nat)
      rw [List.length_cons]
      omega

theorem parseLine_error_spans [Constant.Evaluator] {line : Bytes} {lineNo : Nat} {d : Diagnostic}
    (failed : parseLine line lineNo = .error d) : d.pos.Spans 1 (line.length + 1) := by
  unfold parseLine at failed
  split at failed
  · cases failed
  · next pos cause refused =>
    cases failed
    rcases bind_eq_error_iff.mp refused with lexed | ⟨tokens, lexed, read⟩
    · rw [Nat.add_comm]
      exact lexFrom_error_spans lexed
    · exact parseTokens_error_spans (lexLine_laidOut lexed) read

theorem parse_target_spans [Constant.Evaluator] {source : Bytes} {items : List Item}
    (parsed : parse source = .ok items)
    {item : Item} (member : item ∈ items) {target : Target} {targetPos pos : Pos}
    (address : item.statement = .address target targetPos pos) :
    targetPos.Spans 1 (item.line.length + 1) := by
  obtain ⟨tokens, lexed, read⟩ := parse_item parsed member
  exact parseTokens_spans (lexLine_laidOut lexed) read (by simp [address, Statement.places])

end HackMachine
