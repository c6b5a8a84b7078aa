import HackMachine.Proofs.Outcome

/-! # Access by position

`entry`, `part` and `put` take positions as they come, and stop with `Stop.outside` where a position
lies outside of the list.  A computation that is `checked` of one without positions never does.

Positions are integers, since a difference of two may be negative.  The lemmas speak of a list with a
part before the position, which is how a loop over positions meets its list.
-/

namespace HackMachine

variable {ε δ α β : Type}

/-- Why a computation on positions has no result. -/
inductive Stop (ε : Type) where
  | reported (fault : ε)
  /-- A position outside of its list. -/
  | outside
  deriving DecidableEq, Repr

abbrev Checked (ε α : Type) := Except (Stop ε) α

/-- A computation in which no position can lie outside. -/
def checked (x : Except ε α) : Checked ε α := x.mapError .reported

/-- The same computation with its reports renamed. -/
def Checked.relabel (f : ε → δ) (x : Checked ε α) : Checked δ α :=
  x.mapError fun
    | .reported fault => .reported (f fault)
    | .outside => .outside

/-- The element at a position. -/
def entry (xs : List α) (i : Int) : Checked ε α :=
  if 0 ≤ i then
    match xs[i.toNat]? with
    | some x => .ok x
    | none => .error .outside
  else .error .outside

/-- The elements from one position up to another. -/
def part (xs : List α) (low high : Int) : Checked ε (List α) :=
  if 0 ≤ low ∧ low ≤ high ∧ high ≤ xs.length then
    .ok ((xs.take high.toNat).drop low.toNat)
  else .error .outside

/-- The list with another element at a position. -/
def put (xs : List α) (i : Int) (x : α) : Checked ε (List α) :=
  if 0 ≤ i ∧ i < xs.length then .ok (xs.set i.toNat x) else .error .outside

@[simp] theorem checked_ok (a : α) : checked (.ok a : Except ε α) = .ok a := rfl

@[simp] theorem checked_error (e : ε) : checked (.error e : Except ε α) = .error (.reported e) := rfl

@[simp]
theorem checked_bind (x : Except ε α) (f : α → Except ε β) :
    checked (x >>= f) = checked x >>= fun a => checked (f a) := by
  cases x <;> rfl

@[simp]
theorem checked_map (f : α → β) (x : Except ε α) : checked (f <$> x) = f <$> checked x := by
  cases x <;> rfl

@[simp]
theorem relabel_checked (f : ε → δ) (x : Except ε α) :
    (checked x).relabel f = checked (x.mapError f) := by
  cases x <;> rfl

theorem checked_mapM {f : α → Except ε β} {g : α → Checked ε β} {xs : List α}
    (same : ∀ x ∈ xs, g x = checked (f x)) : xs.mapM g = checked (xs.mapM f) := by
  induction xs with
  | nil => rfl
  | cons x xs ih =>
    have rest : ∀ y ∈ xs, g y = checked (f y) := fun y member => same y (List.mem_cons_of_mem _ member)
    rw [List.mapM_cons, List.mapM_cons, same x List.mem_cons_self, ih rest]
    simp only [checked_bind]
    rfl

theorem checked_foldlM {f : β → α → Except ε β} {g : β → α → Checked ε β} {xs : List α}
    (same : ∀ x ∈ xs, ∀ b, g b x = checked (f b x)) (b : β) :
    xs.foldlM g b = checked (xs.foldlM f b) := by
  induction xs generalizing b with
  | nil => rfl
  | cons x xs ih =>
    have rest : ∀ y ∈ xs, ∀ b, g b y = checked (f b y) :=
      fun y member => same y (List.mem_cons_of_mem _ member)
    rw [List.foldlM_cons, List.foldlM_cons, same x List.mem_cons_self, checked_bind]
    congr 1
    funext b
    exact ih rest b

/-! ## Positions behind a part of the list -/

@[simp]
theorem entry_behind (before : List α) (x : α) (rest : List α) :
    (entry (before ++ x :: rest) before.length : Checked ε α) = .ok x := by
  simp [entry]

theorem entry_at {xs : List α} {i : Int} (before : List α) (x : α) (rest : List α)
    (whole : xs = before ++ x :: rest) (place : i = before.length) :
    (entry xs i : Checked ε α) = .ok x := by
  rw [whole, place, entry_behind]

theorem entry_inside {xs : List α} {i : Int} (low : 0 ≤ i) (high : i < xs.length) :
    ∃ x, (entry xs i : Checked ε α) = .ok x := by
  have bound : i.toNat < xs.length := by omega
  exact ⟨xs[i.toNat], by rw [entry, if_pos low, List.getElem?_eq_getElem bound]⟩

theorem exists_of_entry {xs : List α} {i : Int} {x : α}
    (found : (entry xs i : Checked ε α) = .ok x) :
    ∃ before rest, xs = before ++ x :: rest ∧ i = before.length := by
  unfold entry at found
  split at found
  · next low =>
    split at found
    · next y listed =>
      cases found
      obtain ⟨bound, rfl⟩ := List.getElem?_eq_some_iff.mp listed
      refine ⟨xs.take i.toNat, xs.drop (i.toNat + 1), ?_, ?_⟩
      · rw [← List.drop_eq_getElem_cons bound, List.take_append_drop]
      · rw [List.length_take]
        omega
    · cases found
  · cases found

theorem part_at {xs : List α} {low high : Int} (before inner after : List α)
    (whole : xs = before ++ (inner ++ after)) (start : low = before.length)
    (stop : high = before.length + inner.length) : (part xs low high : Checked ε (List α)) = .ok inner := by
  have bounds : 0 ≤ low ∧ low ≤ high ∧ high ≤ xs.length := by
    simp only [whole, List.length_append]
    omega
  have lowNat : low.toNat = before.length := by omega
  have highNat : high.toNat = before.length + inner.length := by omega
  rw [part, if_pos bounds, lowNat, highNat, whole, ← List.append_assoc, ← List.length_append,
    List.take_left, List.drop_left]

end HackMachine
