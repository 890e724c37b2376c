/-
# Sums over the slots of an array

The requests that a server works on are in the slots of `ptr_array_t`, and are referred to by the
number of their slot.  To count such references, something is added up over all live slots
(`ptrArraySum`); these lemmas say how the sum changes when a slot is taken, changed or freed.
-/
import CCSim.Store
import Mathlib.Algebra.Group.Basic
import Mathlib.Algebra.BigOperators.Group.List.Basic
import Mathlib.Tactic.Abel

namespace CCSim

variable {α B : Type} [AddCommGroup B]

/-- The sum of `f id x` over all live slots. -/
def ptrArraySum (f : ℕ → α → B) : PtrArray α → B
  | [] => 0
  | x :: a => x.elim 0 (f 0) + ptrArraySum (fun id => f (id + 1)) a

@[simp] theorem ptrArraySum_nil (f : ℕ → α → B) : ptrArraySum f [] = 0 := rfl

/-- A slot is taken. -/
theorem ptrArraySum_put (f : ℕ → α → B) (x : α) (a : PtrArray α) :
    ptrArraySum f (ptrArrayPut x a) = ptrArraySum f a + f (ptrArrayFree a) x := by
  induction a generalizing f with
  | nil => simp [ptrArrayPut, ptrArraySum, ptrArrayFree]
  | cons y a ih =>
    cases y with
    | none =>
      simp only [ptrArrayPut, ptrArraySum, ptrArrayFree, Option.elim_some, Option.elim_none,
        zero_add]
      exact add_comm _ _
    | some y =>
      simp only [ptrArrayPut, ptrArraySum, ptrArrayFree, ih, Option.elim_some]
      exact (add_assoc _ _ _).symm

/-- A live slot is changed or freed. -/
theorem ptrArraySum_set (f : ℕ → α → B) {a : PtrArray α} {id : ℕ} {y : α}
    (h : ptrArrayGet a id = some y) (x : Option α) :
    ptrArraySum f (ptrArraySet a id x) = ptrArraySum f a - f id y + x.elim 0 (f id) := by
  induction a generalizing f id with
  | nil => simp [ptrArrayGet] at h
  | cons z a ih =>
    cases id with
    | zero =>
      obtain rfl : z = some y := by simpa [ptrArrayGet] using h
      simp only [ptrArraySet, List.set_cons_zero, ptrArraySum, Option.elim_some]
      abel
    | succ id =>
      have h' : ptrArrayGet a id = some y := by simpa [ptrArrayGet] using h
      have := ih (fun id => f (id + 1)) h'
      simp only [ptrArraySet, List.set_cons_succ, ptrArraySum] at this ⊢
      rw [this]
      abel

/-- All slots are changed, and something is handed over for some of them. -/
theorem ptrArraySum_map {β : Type} (f : ℕ → α → B) (g : α → α) (outs : α → List β) (w : β → B)
    (hf : ∀ id x, f id (g x) + ((outs x).map w).sum = f id x) (a : PtrArray α) :
    ptrArraySum f (a.map (Option.map g)) +
      ((a.flatMap fun x => x.elim [] outs).map w).sum = ptrArraySum f a := by
  induction a generalizing f with
  | nil => simp
  | cons x a ih =>
    have ih := ih (fun id => f (id + 1)) fun id x => hf (id + 1) x
    simp only [List.map_cons, ptrArraySum, List.flatMap_cons, List.map_append, List.sum_append]
    rw [← ih]
    cases x with
    | none =>
      simp only [Option.map_none, Option.elim_none, List.map_nil, List.sum_nil]
      abel
    | some x =>
      simp only [Option.map_some, Option.elim_some]
      rw [← hf 0 x]
      abel

/-- All slots are changed in something that does not count. -/
theorem ptrArraySum_map_same (f : ℕ → α → B) {g : α → α} (hf : ∀ id x, f id (g x) = f id x)
    (a : PtrArray α) : ptrArraySum f (a.map (Option.map g)) = ptrArraySum f a := by
  induction a generalizing f with
  | nil => rfl
  | cons x a ih =>
    rw [List.map_cons, ptrArraySum, ptrArraySum, ih _ fun id x => hf (id + 1) x]
    cases x with
    | none => rfl
    | some x => rw [Option.map_some, Option.elim_some, Option.elim_some, hf]

/-- Only the live slots count. -/
theorem ptrArraySum_congr {f g : ℕ → α → B} {a : PtrArray α}
    (h : ∀ id x, ptrArrayGet a id = some x → f id x = g id x) :
    ptrArraySum f a = ptrArraySum g a := by
  induction a generalizing f g with
  | nil => rfl
  | cons y a ih =>
    have ih := ih (f := fun id => f (id + 1)) (g := fun id => g (id + 1)) fun id x hx =>
      h (id + 1) x hx
    simp only [ptrArraySum, ih]
    cases y with
    | none => rfl
    | some y => rw [Option.elim_some, Option.elim_some, h 0 y rfl]

theorem ptrArraySum_zero (a : PtrArray α) : ptrArraySum (fun _ _ => (0 : B)) a = 0 := by
  induction a with
  | nil => rfl
  | cons y a ih => cases y <;> simp [ptrArraySum, ih]

/-- If the sum is not 0, some live slot counts. -/
theorem exists_of_ptrArraySum_ne_zero {f : ℕ → α → B} {a : PtrArray α} (h : ptrArraySum f a ≠ 0) :
    ∃ id x, ptrArrayGet a id = some x ∧ f id x ≠ 0 := by
  by_contra hall
  push Not at hall
  exact h ((ptrArraySum_congr hall).trans (ptrArraySum_zero a))

/-- A sum in which one slot counts. -/
theorem ptrArraySum_single (g : α → B) (j : ℕ) (a : PtrArray α) :
    ptrArraySum (fun id x => if id = j then g x else 0) a = (ptrArrayGet a j).elim 0 g := by
  induction a generalizing j with
  | nil => rfl
  | cons y a ih =>
    cases j with
    | zero =>
      simp only [ptrArraySum, Nat.add_eq_zero_iff, one_ne_zero, and_false, if_false, if_true,
        ptrArraySum_zero, add_zero]
      cases y <;> rfl
    | succ j =>
      simp only [ptrArraySum, add_left_inj, ih]
      cases y <;> simp [ptrArrayGet]

omit [AddCommGroup B] in
/-- A sum of functions, at one argument. -/
theorem ptrArraySum_apply {ι : Type} (f : ℕ → α → ι → ℤ) (a : PtrArray α) (i : ι) :
    ptrArraySum f a i = ptrArraySum (fun id x => f id x i) a := by
  induction a generalizing f with
  | nil => rfl
  | cons y a ih =>
    simp only [ptrArraySum, Pi.add_apply, ih]
    cases y <;> rfl

/-- What is done to all live slots is done to each. -/
theorem ptrArrayGet_map {β : Type} (g : α → β) (a : PtrArray α) (id : ℕ) :
    ptrArrayGet (a.map (Option.map g)) id = (ptrArrayGet a id).map g := by
  simp only [ptrArrayGet, List.getElem?_map]
  cases a[id]? with
  | none => rfl
  | some x => cases x <;> rfl

/-! ## What is true of all live slots -/

/-- A slot is taken. -/
theorem forall_ptrArrayPut {α : Type} {p : ℕ → α → Prop} {a : PtrArray α}
    (h : ∀ id x, ptrArrayGet a id = some x → p id x) {x : α} (hx : p (ptrArrayFree a) x) :
    ∀ id y, ptrArrayGet (ptrArrayPut x a) id = some y → p id y := by
  intro id y hy
  rw [ptrArrayPut_get] at hy
  split at hy
  · rename_i hid
    cases hy
    exact hid ▸ hx
  · exact h id y hy

/-- A live slot is changed or freed. -/
theorem forall_ptrArraySet {α : Type} {p : ℕ → α → Prop} {a : PtrArray α}
    (h : ∀ id x, ptrArrayGet a id = some x → p id x) {id : ℕ} {y : α}
    (hget : ptrArrayGet a id = some y) {x : Option α} (hx : ∀ z ∈ x, p id z) :
    ∀ id' z, ptrArrayGet (ptrArraySet a id x) id' = some z → p id' z := by
  intro id' z hz
  rw [ptrArraySet_get hget] at hz
  split at hz
  · rename_i hid
    exact hid ▸ hx z hz
  · exact h id' z hz

/-! ## What is in a slot is not replaced -/

/-- A slot that is taken was free. -/
theorem ptrArrayPut_keeps {α O : Type} {f : α → O} {a : PtrArray α} {x : α} (id : ℕ) :
    (ptrArrayGet (ptrArrayPut x a) id).map f = (ptrArrayGet a id).map f ∨
      (ptrArrayGet a id).map f = none := by
  by_cases hid : id = ptrArrayFree a
  · exact .inr (by rw [hid, ptrArrayFree_get]; rfl)
  · exact .inl (by rw [ptrArrayPut_get, if_neg hid])

/-- What is changed keeps what `f` says of it. -/
theorem ptrArraySet_keeps {α O : Type} {f : α → O} {a : PtrArray α} {id : ℕ} {x y : α}
    (hget : ptrArrayGet a id = some x) (hf : f y = f x) (id' : ℕ) :
    (ptrArrayGet (ptrArraySet a id (some y)) id').map f = (ptrArrayGet a id').map f := by
  rw [ptrArraySet_get hget]
  split
  · rename_i hid
    rw [hid, hget, Option.map_some, Option.map_some, hf]
  · rfl

/-- A slot is freed. -/
theorem ptrArraySet_none_keeps {α O : Type} {f : α → O} {a : PtrArray α} {id : ℕ} {x : α}
    (hget : ptrArrayGet a id = some x) (id' : ℕ) :
    (ptrArrayGet (ptrArraySet a id none) id').map f = (ptrArrayGet a id').map f ∨
      (ptrArrayGet (ptrArraySet a id none) id').map f = none := by
  rw [ptrArraySet_get hget]
  split
  · exact .inr rfl
  · exact .inl rfl

/-! ## Sums of integers -/

theorem ptrArraySum_nonneg {f : ℕ → α → ℤ} {a : PtrArray α}
    (hf : ∀ id x, ptrArrayGet a id = some x → 0 ≤ f id x) : 0 ≤ ptrArraySum f a := by
  induction a generalizing f with
  | nil => exact le_rfl
  | cons y a ih =>
    refine add_nonneg ?_ (ih fun id x hx => hf (id + 1) x hx)
    cases y with
    | none => exact le_rfl
    | some y => exact hf 0 y rfl

/-- One slot counts for at most the whole sum. -/
theorem le_ptrArraySum {f : ℕ → α → ℤ} {a : PtrArray α}
    (hf : ∀ id x, ptrArrayGet a id = some x → 0 ≤ f id x) {id : ℕ} {x : α}
    (h : ptrArrayGet a id = some x) : f id x ≤ ptrArraySum f a := by
  have hset := ptrArraySum_set f h none
  have hrest : 0 ≤ ptrArraySum f (ptrArraySet a id none) :=
    ptrArraySum_nonneg (forall_ptrArraySet hf h (by rintro _ ⟨⟩))
  simp only [Option.elim_none, add_zero] at hset
  omega

/-- Two slots count for at most the whole sum. -/
theorem add_le_ptrArraySum {f : ℕ → α → ℤ} {a : PtrArray α}
    (hf : ∀ id x, ptrArrayGet a id = some x → 0 ≤ f id x) {id id' : ℕ} {x x' : α}
    (h : ptrArrayGet a id = some x) (h' : ptrArrayGet a id' = some x') (hne : id' ≠ id) :
    f id x + f id' x' ≤ ptrArraySum f a := by
  have hset := ptrArraySum_set f h none
  have hrest : f id' x' ≤ ptrArraySum f (ptrArraySet a id none) :=
    le_ptrArraySum (forall_ptrArraySet hf h (by rintro _ ⟨⟩))
      (by rw [ptrArraySet_get h, if_neg hne]; exact h')
  simp only [Option.elim_none, add_zero] at hset
  omega

end CCSim
