/-
# What a stable time promises

A stable time of a data center is a promise about all of its partitions: the version vector of each
has come at least that far.  Version vectors may go back, so "has come" means the largest value that
an entry has held (`largestHeld`).  A promise that has been kept stays kept (`Promised.cons`), and the
minimum that the root of the aggregation tree reads is one: every partition has contributed to it a
value that its version vector held (`RoundView.Kept.minimum_promised`).
-/
import CCSim.RoundView

namespace CCSim

variable {c : Cluster} {E σ κ χ : Type}

/-- A root that is a leaf is the only partition. -/
theorem only_partition {s : ServerId c} (hroot : s.2.val = 0) (hleaf : isLeafPartition s.2 = true)
    (p : Partition c) : (s.1, p) = s := by
  have hone : c.numPartitions ≤ 1 := by
    by_contra hmany
    have hnot := root_not_leaf (not_le.mp hmany)
    rw [← (Fin.ext hroot : s.2 = c.root), hleaf] at hnot
    cases hnot
  exact Prod.ext rfl (Fin.ext (by have := p.2; omega))

/-! ## 1. What has been held -/

/-- The largest value that the entry `i` of the version vector of a server has held so far.  Version
vectors start with 0 (`gr_init_state`, `grv_init_state`). -/
def largestHeld (versions : σ → Replica c → ℚ) (s : ServerId c) (i : Replica c) :
    List (Act (ServerId c) (ClientId c) E σ κ) → ℚ
  | [] => 0
  | .server s' _ _ _ r :: h =>
    if s' = s then max (versions r.state i) (largestHeld versions s i h)
    else largestHeld versions s i h
  | .client _ _ _ _ _ :: h => largestHeld versions s i h

/-- The entry `i` of the version vector of every partition of the data center `r` has come as far as
`v`. -/
def Promised (versions : σ → Replica c → ℚ) (r i : Replica c) (v : ℚ)
    (h : List (Act (ServerId c) (ClientId c) E σ κ)) : Prop :=
  ∀ p : Partition c, v ≤ largestHeld versions (r, p) i h

/-- The data center of a process. -/
def centerOf : ServerId c ⊕ ClientId c → Replica c
  | .inl s => s.1
  | .inr k => k.1

variable {versions : σ → Replica c → ℚ} {s : ServerId c} {r i : Replica c} {v w : ℚ}
  {a : Act (ServerId c) (ClientId c) E σ κ} {h : List (Act (ServerId c) (ClientId c) E σ κ)}

theorem largestHeld_cons : largestHeld versions s i h ≤ largestHeld versions s i (a :: h) := by
  cases a with
  | client => exact le_rfl
  | server s' t e st r =>
    rw [largestHeld]
    split
    · exact le_max_right _ _
    · exact le_rfl

theorem le_largestHeld_self {t : ℚ} {e : E} {st : σ}
    {out : Outcome (ServerId c) (ClientId c) E σ} :
    versions out.state i ≤ largestHeld versions s i (.server s t e st out :: h) := by
  rw [largestHeld, if_pos rfl]
  exact le_max_left _ _

/-- **A promise that has been kept stays kept.** -/
theorem Promised.cons (hv : Promised versions r i v h) : Promised versions r i v (a :: h) :=
  fun p => (hv p).trans largestHeld_cons

theorem Promised.max (hv : Promised versions r i v h) (hw : Promised versions r i w h) :
    Promised versions r i (max v w) h :=
  fun p => max_le (hv p) (hw p)

theorem largestHeld_nonneg : 0 ≤ largestHeld versions s i h := by
  induction h with
  | nil => exact le_rfl
  | cons a h ih => exact ih.trans largestHeld_cons

theorem Promised.zero : Promised versions r i 0 h := fun _ => largestHeld_nonneg

/-! ## 2. What is held in a run -/

section Runs

variable {P : Program (ServerId c) (ClientId c) E σ κ χ}
  {Q : Act (ServerId c) (ClientId c) E σ κ → Prop} {M₀ M : Mail (ServerId c) (ClientId c) E σ κ}

/-- An entry is not larger than what it has held. -/
theorem Mail.Run.le_largestHeld (hinit : ∀ s i, versions (M₀.server s) i ≤ 0)
    (hr : Mail.Run P Q M₀ M h) (s : ServerId c) (i : Replica c) :
    versions (M.server s) i ≤ largestHeld versions s i h :=
  (hr.flow_all (fun h s st => versions st i ≤ largestHeld versions s i h) (fun _ _ _ => True)
    (fun _ _ => True) (fun hst => hst.trans largestHeld_cons) id id
    (fun _ _ _ _ _ => ⟨le_largestHeld_self, fun _ _ => trivial⟩)
    (fun _ _ _ _ => ⟨trivial, fun _ _ => trivial⟩) (fun s => hinit s i) (fun _ => trivial)
    fun _ _ => trivial).1 s

/-- What a server has contributed is a value that its version vector held, if that is so in every
handler call. -/
theorem Mail.Run.contributions_le {view : RoundView c E σ ℚ}
    (hview : ∀ s st e, ∀ v ∈ view.contributed s st e, v ≤ versions st i)
    (hinit : ∀ s i, versions (M₀.server s) i ≤ 0) (hr : Mail.Run P Q M₀ M h) (s : ServerId c) :
    ∀ v ∈ view.contributions s h, v ≤ largestHeld versions s i h := by
  induction hr with
  | nil => exact List.forall_mem_nil _
  | @cons M M' h a hrun hstep hq ih =>
    cases hstep with
    | wait => exact ih
    | client => exact ih
    | @serve s' t e out mail hev ht hserve =>
      intro v hv
      rw [Option.toList_some, List.singleton_append, RoundView.contributions,
        List.flatMap_cons] at hv
      rcases List.mem_append.mp hv with hv | hv
      · simp only [RoundView.contributedIn] at hv
        split at hv
        · rename_i hs
          subst hs
          exact (hview _ _ _ v hv).trans
            ((hrun.le_largestHeld hinit _ i).trans largestHeld_cons)
        · cases hv
      · exact (ih v hv).trans largestHeld_cons

/-- **The minimum of a round is a promise.** -/
theorem RoundView.Kept.minimum_promised {view : RoundView c E σ ℚ} (hM : view.Kept M h)
    (hheld : ∀ s, ∀ v ∈ view.contributions s h, v ≤ largestHeld versions s i h) {e : E}
    (hev : (.inl s, e) ∈ M.events) (hclosed : view.token s.2 e = some .closed) :
    Promised versions s.1 i (view.minimum (M.server s)) h := by
  obtain ⟨r, q⟩ := s
  obtain ⟨hroot, -⟩ := hM.placed _ hev ((r, q), .closed) (by rw [RoundView.tokenAt, hclosed]; rfl)
  obtain rfl : q = c.root := hroot
  obtain ⟨hlength, hleast⟩ := (hM.law r).read e hev hclosed
  intro p
  -- every partition has contributed to this round, and the minimum is not larger
  obtain ⟨v, hv⟩ : ∃ v, (view.contributions (r, p) h).head? = some v := by
    cases hl : view.contributions (r, p) h with
    | nil => exact absurd (hlength p) (by rw [hl]; exact (Nat.succ_ne_zero _).symm)
    | cons v l => exact ⟨v, rfl⟩
  exact (hleast.2 ⟨p, hv⟩).trans (hheld _ v (List.mem_of_mem_head? hv))

end Runs

end CCSim
