/-
# Finite trees as functions to the parent

A node of such a tree knows its parent, and ranks make sure that every path ends at the root.
`load` adds up integers along the path from the root to a node; moving a unit from the children of
a node to the node itself changes the load of that node only (`load_add_fan`).
-/
import Mathlib.Algebra.Order.Group.Int
import Mathlib.Data.Int.Basic
import Mathlib.Tactic.Abel

namespace CCSim

/-! ## 1. Trees -/

/-- A tree, as a function to the parent. -/
structure Tree (N : Type) where
  root : N
  parent : N → N
  rank : N → ℕ
  rank_parent : ∀ p, p ≠ root → rank (parent p) < rank p

namespace Tree

variable {N : Type} (T : Tree N)

def ChildOf (p q : N) : Prop := p ≠ T.root ∧ T.parent p = q

instance [DecidableEq N] (p q : N) : Decidable (T.ChildOf p q) :=
  inferInstanceAs (Decidable (_ ∧ _))

/-- `T.Below q u`: the node `u` is `q` or a descendant of it. -/
inductive Below (q : N) : N → Prop
  | refl : Below q q
  | up {u : N} (hu : u ≠ T.root) (h : Below q (T.parent u)) : Below q u

variable {T}

/-- Induction from the root to the leaves. -/
theorem induction {motive : N → Prop} (root : motive T.root)
    (child : ∀ u, u ≠ T.root → motive (T.parent u) → motive u) (u : N) : motive u := by
  induction h : T.rank u using Nat.strong_induction_on generalizing u with
  | _ n ih =>
    by_cases hu : u = T.root
    · exact hu ▸ root
    · exact child u hu (ih _ (h ▸ T.rank_parent u hu) _ rfl)

theorem parent_ne {u : N} (hu : u ≠ T.root) : T.parent u ≠ u := fun h =>
  absurd (T.rank_parent u hu) (by rw [h]; exact lt_irrefl _)

theorem not_childOf_self (q : N) : ¬T.ChildOf q q := fun h => parent_ne h.1 h.2

theorem below_root (u : N) : T.Below T.root u :=
  induction .refl (fun _ hu ih => .up hu ih) u

theorem Below.rank_le {q u : N} (h : T.Below q u) : T.rank q ≤ T.rank u := by
  induction h with
  | refl => exact le_rfl
  | up hu _ ih => exact ih.trans (T.rank_parent _ hu).le

theorem ChildOf.below {p q u : N} (hp : T.ChildOf p q) (h : T.Below p u) : T.Below q u := by
  induction h with
  | refl => exact .up hp.1 (hp.2 ▸ .refl)
  | up hu _ ih => exact .up hu ih

/-- A node is not below its children. -/
theorem ChildOf.ne_of_below {p q u : N} (hp : T.ChildOf p q) (h : T.Below p u) : u ≠ q := by
  rintro rfl
  have hlt := T.rank_parent p hp.1
  rw [hp.2] at hlt
  exact absurd h.rank_le (not_le.mpr hlt)

/-- What is below a node is the node itself or below one of its children. -/
theorem Below.eq_or_child {q u : N} (h : T.Below q u) :
    u = q ∨ ∃ p, T.ChildOf p q ∧ T.Below p u := by
  induction h with
  | refl => exact .inl rfl
  | @up u hu _ ih =>
    rcases ih with heq | ⟨p, hp, hbelow⟩
    · exact .inr ⟨u, ⟨hu, heq⟩, .refl⟩
    · exact .inr ⟨p, hp, .up hu hbelow⟩

/-! ## 2. Sums along a path -/

variable [DecidableEq N]

/-- What `w` adds up to on the path from the root to a node. -/
def load (T : Tree N) (w : N → ℤ) (u : N) : ℤ :=
  if _h : u = T.root then w u else w u + T.load w (T.parent u)
termination_by T.rank u
decreasing_by exact T.rank_parent u _h

@[simp]
theorem load_root (w : N → ℤ) : T.load w T.root = w T.root := by
  rw [load, dif_pos rfl]

theorem load_child (w : N → ℤ) {u : N} (hu : u ≠ T.root) :
    T.load w u = w u + T.load w (T.parent u) := by
  rw [load, dif_neg hu]

theorem load_add (w w' : N → ℤ) (u : N) : T.load (w + w') u = T.load w u + T.load w' u := by
  induction u using induction (T := T) with
  | root => simp
  | child u hu ih =>
    rw [load_child _ hu, load_child _ hu, load_child _ hu, ih, Pi.add_apply]
    abel

theorem load_nonneg {w : N → ℤ} (hw : ∀ u, 0 ≤ w u) (u : N) : 0 ≤ T.load w u := by
  induction u using induction (T := T) with
  | root =>
    rw [load_root]
    exact hw _
  | child u hu ih =>
    rw [load_child _ hu]
    exact add_nonneg (hw u) ih

/-- A node counts in the load of everything below it. -/
theorem le_load {w : N → ℤ} (hw : ∀ u, 0 ≤ w u) {q u : N} (h : T.Below q u) :
    w q ≤ T.load w u := by
  induction h with
  | refl =>
    by_cases hq : q = T.root
    · rw [hq, load_root]
    · rw [load_child _ hq]
      exact le_add_of_nonneg_right (load_nonneg hw _)
  | @up u hu _ ih =>
    rw [load_child _ hu]
    exact ih.trans (le_add_of_nonneg_left (hw u))

/-- One unit more at a node, and one less at each of its children. -/
def fan (T : Tree N) (q u : N) : ℤ :=
  (if u = q then 1 else 0) - if T.ChildOf u q then 1 else 0

/-- Only the node itself notices. -/
theorem load_fan (q u : N) : T.load (T.fan q) u = if u = q then 1 else 0 := by
  induction u using induction (T := T) with
  | root =>
    have hroot : ¬T.ChildOf T.root q := fun h => h.1 rfl
    rw [load_root, fan, if_neg hroot, sub_zero]
  | child u hu ih =>
    have hchild : T.ChildOf u q ↔ T.parent u = q := ⟨And.right, fun h => ⟨hu, h⟩⟩
    rw [load_child _ hu, ih, fan]
    simp only [hchild]
    exact sub_add_cancel _ _

theorem load_add_fan (w : N → ℤ) (q u : N) :
    T.load (w + T.fan q) u = T.load w u + if u = q then 1 else 0 := by
  rw [load_add, load_fan]

end Tree

end CCSim
