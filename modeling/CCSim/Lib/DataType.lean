/-
# Abstract data types and their implementations

A data type says what its operations do and return, and for which of them the caller is allowed to
ask in a state.  An implementation may also go wrong, which is `none`.  It refines the data type
along a relation if the initial states are related and every allowed operation goes through, returns
the same, and leads to related states again (`Implementation.Refines`).  Then every allowed sequence
of operations goes through with the same results (`Implementation.Refines.run`).
-/
import Mathlib.Data.List.Basic

namespace CCSim

variable {O R τ σ : Type}

/-! ## 1. Sequences of operations -/

/-- What the operations do, what they return, and which of them are allowed. -/
structure DataType (O R τ : Type) where
  init : τ
  step : τ → O → τ × R
  Allows : τ → O → Prop

/-- Code for the operations. -/
structure Implementation (O R σ : Type) where
  init : σ
  step : σ → O → Option (σ × R)

namespace DataType

variable (D : DataType O R τ)

/-- The state after some operations. -/
def after (t : τ) (ops : List O) : τ := ops.foldl (fun t op => (D.step t op).1) t

/-- What they return. -/
def results : τ → List O → List R
  | _, [] => []
  | t, op :: ops => (D.step t op).2 :: results (D.step t op).1 ops

/-- Each of them is allowed when it comes. -/
def AllowsAll : τ → List O → Prop
  | _, [] => True
  | t, op :: ops => D.Allows t op ∧ AllowsAll (D.step t op).1 ops

variable {D}

@[simp] theorem after_cons (t : τ) (op : O) (ops : List O) :
    D.after t (op :: ops) = D.after (D.step t op).1 ops := rfl

theorem after_append (t : τ) (ops ops' : List O) :
    D.after t (ops ++ ops') = D.after (D.after t ops) ops' := List.foldl_append

theorem allowsAll_append {t : τ} {ops ops' : List O} :
    D.AllowsAll t (ops ++ ops') ↔ D.AllowsAll t ops ∧ D.AllowsAll (D.after t ops) ops' := by
  induction ops generalizing t with
  | nil => exact (iff_of_eq (true_and _)).symm
  | cons op ops ih => exact (and_congr_right fun _ => ih).trans and_assoc.symm

end DataType

/-- The state after some operations, and what they return, if they go through. -/
def Implementation.run (I : Implementation O R σ) : σ → List O → Option (σ × List R)
  | s, [] => some (s, [])
  | s, op :: ops =>
    match I.step s op with
    | none => none
    | some (s', r) => (I.run s' ops).map fun x => (x.1, r :: x.2)

/-! ## 2. Refinement -/

/-- The implementation does what the data type says. -/
structure Implementation.Refines (I : Implementation O R σ) (D : DataType O R τ)
    (rel : σ → τ → Prop) : Prop where
  init : rel I.init D.init
  step : ∀ s t op, rel s t → D.Allows t op →
    ∃ s', I.step s op = some (s', (D.step t op).2) ∧ rel s' (D.step t op).1

variable {I : Implementation O R σ} {D : DataType O R τ} {rel : σ → τ → Prop}

theorem Implementation.Refines.run_from (h : I.Refines D rel) {s : σ} {t : τ} {ops : List O}
    (hrel : rel s t) (hops : D.AllowsAll t ops) :
    ∃ s', I.run s ops = some (s', D.results t ops) ∧ rel s' (D.after t ops) := by
  induction ops generalizing s t with
  | nil => exact ⟨s, rfl, hrel⟩
  | cons op ops ih =>
    obtain ⟨s₁, hstep, hrel₁⟩ := h.step s t op hrel hops.1
    obtain ⟨s', hrun, hrel'⟩ := ih hrel₁ hops.2
    refine ⟨s', ?_, hrel'⟩
    rw [Implementation.run, hstep]
    simp only [hrun, Option.map_some, DataType.results]

/-- **Every allowed sequence of operations goes through**, and returns what the data type says. -/
theorem Implementation.Refines.run (h : I.Refines D rel) {ops : List O}
    (hops : D.AllowsAll D.init ops) :
    ∃ s, I.run I.init ops = some (s, D.results D.init ops) ∧ rel s (D.after D.init ops) :=
  h.run_from h.init hops

end CCSim
