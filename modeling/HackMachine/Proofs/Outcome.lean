import Mathlib.Data.List.Forall2

/-! # Computations that may fail

When a sequence of steps that may fail succeeds: each step succeeded, on every element where the
steps go over a list.  When it fails: some step failed and those before it succeeded.  `recast` renames
errors and results; a sequence of renamed steps is the renamed sequence.
-/

namespace HackMachine

variable {ε δ α β γ κ : Type}

@[simp] theorem ok_bind (a : α) (f : α → Except ε β) : (Except.ok a >>= f) = f a := rfl

@[simp] theorem error_bind (e : ε) (f : α → Except ε β) : (Except.error e >>= f) = .error e := rfl

@[simp] theorem map_ok (f : α → β) (a : α) : f <$> (Except.ok a : Except ε α) = .ok (f a) := rfl

theorem bind_eq_ok_iff {x : Except ε α} {f : α → Except ε β} {b : β} :
    (x >>= f) = .ok b ↔ ∃ a, x = .ok a ∧ f a = .ok b := by
  cases x <;> simp

theorem bind_eq_error_iff {x : Except ε α} {f : α → Except ε β} {e : ε} :
    (x >>= f) = .error e ↔ x = .error e ∨ ∃ a, x = .ok a ∧ f a = .error e := by
  cases x <;> simp

/-- A walk fails at the first element that its step refuses. -/
theorem foldlM_eq_error_iff {step : β → α → Except ε β} {xs : List α} {b : β} {e : ε} :
    xs.foldlM step b = .error e ↔
      ∃ before x after reached, xs = before ++ x :: after ∧
        before.foldlM step b = .ok reached ∧ step reached x = .error e := by
  induction xs generalizing b with
  | nil =>
    rw [List.foldlM_nil]
    constructor
    · intro failed
      cases failed
    · rintro ⟨before, x, after, _, same, -, -⟩
      simp at same
  | cons x xs ih =>
    rw [List.foldlM_cons, bind_eq_error_iff]
    constructor
    · rintro (refused | ⟨next, stepped, failed⟩)
      · exact ⟨[], x, xs, b, rfl, rfl, refused⟩
      · obtain ⟨before, y, after, reached, rfl, walked, refused⟩ := ih.mp failed
        refine ⟨x :: before, y, after, reached, rfl, ?_, refused⟩
        rw [List.foldlM_cons, stepped, ok_bind, walked]
    · rintro ⟨before, y, after, reached, same, walked, refused⟩
      cases before with
      | nil =>
        cases same
        cases walked
        exact .inl refused
      | cons z before =>
        cases same
        obtain ⟨next, stepped, walked⟩ := bind_eq_ok_iff.mp walked
        exact .inr ⟨next, stepped, ih.mpr ⟨before, y, after, reached, rfl, walked, refused⟩⟩

theorem forM_eq_ok_iff {check : α → Except ε Unit} {xs : List α} :
    xs.forM check = .ok () ↔ ∀ x ∈ xs, check x = .ok () := by
  induction xs with
  | nil => exact ⟨fun _ x member => absurd member List.not_mem_nil, fun _ => rfl⟩
  | cons x xs ih =>
    change (check x >>= fun _ => xs.forM check) = .ok () ↔ _
    rw [bind_eq_ok_iff]
    constructor
    · rintro ⟨⟨⟩, first, rest⟩ y (_ | ⟨_, member⟩)
      · exact first
      · exact ih.mp rest y member
    · intro all
      exact ⟨(), all x (by simp), ih.mpr fun y member => all y (by simp [member])⟩

theorem mapM_eq_ok_iff {f : α → Except ε β} {xs : List α} {ys : List β} :
    xs.mapM f = .ok ys ↔ List.Forall₂ (fun x y => f x = .ok y) xs ys := by
  induction xs generalizing ys with
  | nil =>
    rw [List.mapM_nil, List.forall₂_nil_left_iff]
    exact ⟨fun same => (Except.ok.inj same).symm, fun same => same ▸ rfl⟩
  | cons x xs ih =>
    rw [List.mapM_cons, bind_eq_ok_iff, List.forall₂_cons_left_iff]
    constructor
    · rintro ⟨y, first, rest⟩
      obtain ⟨zs, mapped, same⟩ := bind_eq_ok_iff.mp rest
      exact ⟨y, zs, first, ih.mp mapped, (Except.ok.inj same).symm⟩
    · rintro ⟨y, zs, first, mapped, rfl⟩
      refine ⟨y, first, bind_eq_ok_iff.mpr ⟨zs, ih.mpr mapped, rfl⟩⟩

theorem mapM_eq_error_iff {f : α → Except ε β} {xs : List α} {e : ε} :
    xs.mapM f = .error e ↔
      ∃ before x after, xs = before ++ x :: after ∧ (∀ y ∈ before, ∃ b, f y = .ok b) ∧
        f x = .error e := by
  induction xs with
  | nil =>
    rw [List.mapM_nil]
    constructor
    · intro failed
      cases failed
    · rintro ⟨before, x, after, same, -, -⟩
      simp at same
  | cons x xs ih =>
    rw [List.mapM_cons, bind_eq_error_iff]
    constructor
    · rintro (refused | ⟨b, first, rest⟩)
      · exact ⟨[], x, xs, rfl, by simp, refused⟩
      · obtain failed | ⟨_, _, same⟩ := bind_eq_error_iff.mp rest
        · obtain ⟨before, y, after, rfl, passed, refused⟩ := ih.mp failed
          exact ⟨x :: before, y, after, rfl, List.forall_mem_cons.mpr ⟨⟨b, first⟩, passed⟩, refused⟩
        · cases same
    · rintro ⟨before, y, after, same, passed, refused⟩
      cases before with
      | nil =>
        cases same
        exact .inl refused
      | cons z before =>
        cases same
        obtain ⟨⟨b, first⟩, passed⟩ := List.forall_mem_cons.mp passed
        refine .inr ⟨b, first, bind_eq_error_iff.mpr (.inl ?_)⟩
        exact ih.mpr ⟨before, y, after, rfl, passed, refused⟩

theorem forM_eq_mapM (check : α → Except ε Unit) (xs : List α) :
    xs.forM check = xs.mapM check >>= fun _ => .ok () := by
  induction xs with
  | nil => rfl
  | cons x xs ih =>
    change (check x >>= fun _ => xs.forM check) = _
    rw [ih, List.mapM_cons]
    cases check x with
    | error e => rfl
    | ok _ => cases xs.mapM check <;> rfl

theorem forM_eq_error_iff {check : α → Except ε Unit} {xs : List α} {e : ε} :
    xs.forM check = .error e ↔
      ∃ before x after, xs = before ++ x :: after ∧ (∀ y ∈ before, check y = .ok ()) ∧
        check x = .error e := by
  rw [forM_eq_mapM, bind_eq_error_iff]
  have passes : ∀ y, (∃ b, check y = .ok b) ↔ check y = .ok () := by
    intro y
    constructor
    · rintro ⟨⟨⟩, passed⟩
      exact passed
    · intro passed
      exact ⟨(), passed⟩
  simp only [reduceCtorEq, and_false, exists_false, or_false, mapM_eq_error_iff, passes]

/-! ## Lists related element by element -/

theorem exists_of_forall₂ {related : α → β → Prop} {xs : List α} {ys : List β}
    (each : List.Forall₂ related xs ys) {y : β} (member : y ∈ ys) : ∃ x ∈ xs, related x y := by
  induction each with
  | nil => cases member
  | cons first rest ih =>
    rcases List.mem_cons.mp member with rfl | member
    · exact ⟨_, List.mem_cons_self, first⟩
    · obtain ⟨x, listed, same⟩ := ih member
      exact ⟨x, List.mem_cons_of_mem _ listed, same⟩

theorem map_eq_of_forall₂ {f : α → γ} {g : β → γ} {xs : List α} {ys : List β}
    (each : List.Forall₂ (fun x y => f x = g y) xs ys) : xs.map f = ys.map g := by
  have same : List.Forall₂ (· = ·) (xs.map f) (ys.map g) := by
    rw [List.forall₂_map_left_iff, List.forall₂_map_right_iff]
    exact each
  rwa [List.forall₂_eq_eq_eq] at same

theorem forall_of_mapM_eq_ok {f : α → Except ε β} {xs : List α} {ys : List β}
    (mapped : xs.mapM f = .ok ys) {x : α} (member : x ∈ xs) : ∃ y ∈ ys, f x = .ok y :=
  exists_of_forall₂ (mapM_eq_ok_iff.mp mapped).flip member

theorem exists_of_mapM_eq_ok {f : α → Except ε β} {xs : List α} {ys : List β}
    (mapped : xs.mapM f = .ok ys) {y : β} (member : y ∈ ys) : ∃ x ∈ xs, f x = .ok y :=
  exists_of_forall₂ (mapM_eq_ok_iff.mp mapped) member

/-! ## Renamed outcomes -/

/-- The outcome with its error and its result renamed. -/
def recast (f : ε → δ) (g : α → β) : Except ε α → Except δ β
  | .ok a => .ok (g a)
  | .error e => .error (f e)

section

variable {f : ε → δ} {g : α → β}

@[simp] theorem recast_ok (a : α) : recast f g (.ok a) = .ok (g a) := rfl

@[simp] theorem recast_error (e : ε) : recast f g (.error e) = .error (f e) := rfl

theorem recast_eq_ok_iff {x : Except ε α} {b : β} :
    recast f g x = .ok b ↔ ∃ a, x = .ok a ∧ g a = b := by
  cases x <;> simp

theorem recast_eq_error_iff {x : Except ε α} {d : δ} :
    recast f g x = .error d ↔ ∃ e, x = .error e ∧ f e = d := by
  cases x <;> simp

theorem recast_bind {x : Except ε α} {next : α → Except ε γ} {y : Except δ β} {next' : β → Except δ κ}
    {h : γ → κ} (first : y = recast f g x)
    (rest : ∀ a, x = .ok a → next' (g a) = recast f h (next a)) :
    (y >>= next') = recast f h (x >>= next) := by
  subst first
  cases x with
  | error e => rfl
  | ok a => exact rest a rfl

theorem recast_mapM {ι : Type} {i : ι → γ} {step : ι → Except ε α} {step' : γ → Except δ β}
    {xs : List ι} (steps : ∀ x ∈ xs, step' (i x) = recast f g (step x)) :
    (xs.map i).mapM step' = recast f (List.map g) (xs.mapM step) := by
  induction xs with
  | nil => rfl
  | cons x xs ih =>
    rw [List.map_cons, List.mapM_cons, List.mapM_cons]
    refine recast_bind (steps x List.mem_cons_self) fun a _ => ?_
    exact recast_bind (ih fun y member => steps y (List.mem_cons_of_mem _ member)) fun _ _ => rfl

theorem recast_foldlM {ι : Type} {i : ι → γ} {step : α → ι → Except ε α} {step' : β → γ → Except δ β}
    (steps : ∀ a x, step' (g a) (i x) = recast f g (step a x)) (xs : List ι) (a : α) :
    (xs.map i).foldlM step' (g a) = recast f g (xs.foldlM step a) := by
  induction xs generalizing a with
  | nil => rfl
  | cons x xs ih =>
    rw [List.map_cons, List.foldlM_cons, List.foldlM_cons]
    exact recast_bind (steps a x) fun b _ => ih b

theorem recast_forM {ι : Type} {i : ι → γ} {check : ι → Except ε Unit} {check' : γ → Except δ Unit}
    (checks : ∀ x, check' (i x) = recast f id (check x)) (xs : List ι) :
    (xs.map i).forM check' = recast f id (xs.forM check) := by
  rw [forM_eq_mapM, forM_eq_mapM]
  exact recast_bind (recast_mapM fun x _ => checks x) fun _ _ => rfl

end

end HackMachine
