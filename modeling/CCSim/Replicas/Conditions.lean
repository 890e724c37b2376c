/-
# Conditions on runs

The results on coverage and convergence hold in runs that meet conditions, each of which rules out
one way in which a step can go wrong.  A condition looks at an event and at the state before it:

* `InOrder`: messages that carry times are handled in the order of these times, as links that
  deliver in order make them;
* `AfterBeats`: a PUT gets the lock strictly later than the heartbeats sent before;
* `NoPassing`: a heartbeat gets its lock only when every update it covers that is still in the
  queue has been installed, as the entry of the version vector shows;
* `NoTie`: no version goes on top of one of the same update time and a greater source replica;
* `NoStall`: the work on a queue never comes to a halt before an update.

Each enforces its part of the machine's discipline (`Replicating.enforces`), and all but the last
come with a test, so that a replayed run can be seen to meet them.
-/
import CCSim.Replicas.Tracking
import CCSim.Replay

namespace CCSim

open Replication

variable {c : Cluster} {D E σ κ χ : Type}
  {P : Program (ServerId c) (ClientId c) E σ κ χ} (R : Replicating P D)

/-! ## 1. The conditions -/

/-- The updates of one source are handled in the order in which they were made. -/
def Replicating.UpdatesInOrder : Cond (ServerId c) (ClientId c) E σ κ
  | _, .client _ _ _ _ _ => True
  | v, .server s _ e _ _ => match R.role e with
    | .update u => ∀ e' u', v.pending s e' → R.role e' = .update u' →
      u'.sourceReplica = u.sourceReplica → u.updateTime ≤ u'.updateTime
    | _ => True

/-- A heartbeat is handled after the updates of its source that were made before it. -/
def Replicating.BeatsInOrder : Cond (ServerId c) (ClientId c) E σ κ
  | _, .client _ _ _ _ _ => True
  | v, .server s _ e _ _ => match R.role e with
    | .beat j y => ∀ e' u', v.pending s e' → R.role e' = .update u' →
      u'.sourceReplica = j → y < u'.updateTime
    | _ => True

/-- What one source sends is handled in order. -/
def Replicating.InOrder : Cond (ServerId c) (ClientId c) E σ κ := fun v a =>
  R.UpdatesInOrder v a ∧ R.BeatsInOrder v a

/-- A PUT gets the lock strictly after every heartbeat with a time that the server has sent. -/
def Replicating.AfterBeats : Cond (ServerId c) (ClientId c) E σ κ
  | _, .client _ _ _ _ _ => True
  | v, .server s t e _ _ => match R.role e with
    | .put _ => ∀ t' e' st' r', .server s t' e' st' r' ∈ v.past → R.role e' = .promise → t' < t
    | _ => True

/-- A heartbeat does not raise an entry of the version vector beyond an update in the queue. -/
def Replicating.NoPassing : Cond (ServerId c) (ClientId c) E σ κ
  | _, .client _ _ _ _ _ => True
  | _, .server s _ e st _ => match R.role e with
    | .raise j y => ∀ u ∈ (R.view s st).queues j,
      y < u.updateTime ∨ u.updateTime ≤ (R.view s st).versionVector j
    | _ => True

/-- No version goes on top of one of the same update time and a greater source replica. -/
def Replicating.NoTie : Cond (ServerId c) (ClientId c) E σ κ
  | _, .client _ _ _ _ _ => True
  | _, .server s t e st _ => match R.role e with
    | .put id => ∀ key ∈ R.putKey st id, ∀ latest ∈ latestItem (R.view s st).store key,
      latest.updateTime = c.clock s t → latest.sourceReplica ≤ s.1
    | .install u => ∀ latest ∈ latestItem (R.view s st).store u.key,
      latest.updateTime = u.updateTime → latest.sourceReplica ≤ u.sourceReplica
    | _ => True

/-- The work on a queue never halts before an update. -/
def Replicating.NoStall : Cond (ServerId c) (ClientId c) E σ κ
  | _, .client _ _ _ _ _ => True
  | _, .server s _ e st _ => match R.role e with
    | .update u => (R.view s st).queues u.sourceReplica = [] →
      ¬Stalls (R.rules s) (R.view s st).store [u]
    | .leave u =>
      ¬Stalls (R.rules s) (R.view s st).store ((R.view s st).queues u.sourceReplica).tail
    | _ => True

/-! ## 2. Tests -/

def Replicating.updatesInOrderTest : CallTest (ServerId c) (ClientId c) E σ κ
  | _, _, .client _ _ _ _ _ => true
  | W, _, .server s _ e _ _ => match R.role e with
    | .update u => (W.pendingAt s).all fun e' => match R.role e' with
      | .update u' => decide (u'.sourceReplica = u.sourceReplica → u.updateTime ≤ u'.updateTime)
      | _ => true
    | _ => true

def Replicating.beatsInOrderTest : CallTest (ServerId c) (ClientId c) E σ κ
  | _, _, .client _ _ _ _ _ => true
  | W, _, .server s _ e _ _ => match R.role e with
    | .beat j y => (W.pendingAt s).all fun e' => match R.role e' with
      | .update u' => decide (u'.sourceReplica = j → y < u'.updateTime)
      | _ => true
    | _ => true

def Replicating.inOrderTest : CallTest (ServerId c) (ClientId c) E σ κ := fun W h a =>
  R.updatesInOrderTest W h a && R.beatsInOrderTest W h a

def Replicating.afterBeatsTest : CallTest (ServerId c) (ClientId c) E σ κ
  | _, _, .client _ _ _ _ _ => true
  | _, h, .server s t e _ _ => match R.role e with
    | .put _ => h.all fun a => match a with
      | .client _ _ _ _ _ => true
      | .server s' t' e' _ _ => match R.role e' with
        | .promise => decide (s' = s → t' < t)
        | _ => true
    | _ => true

def Replicating.noPassingTest : CallTest (ServerId c) (ClientId c) E σ κ
  | _, _, .client _ _ _ _ _ => true
  | _, _, .server s _ e st _ => match R.role e with
    | .raise j y => decide (∀ u ∈ (R.view s st).queues j,
      y < u.updateTime ∨ u.updateTime ≤ (R.view s st).versionVector j)
    | _ => true

def Replicating.noTieTest : CallTest (ServerId c) (ClientId c) E σ κ
  | _, _, .client _ _ _ _ _ => true
  | _, _, .server s t e st _ => match R.role e with
    | .put id => decide (∀ key ∈ R.putKey st id,
      ∀ latest ∈ latestItem (R.view s st).store key,
        latest.updateTime = c.clock s t → latest.sourceReplica ≤ s.1)
    | .install u => decide (∀ latest ∈ latestItem (R.view s st).store u.key,
      latest.updateTime = u.updateTime → latest.sourceReplica ≤ u.sourceReplica)
    | _ => true

theorem Replicating.updatesInOrder_tested :
    Cond.TestedBy R.UpdatesInOrder R.updatesInOrderTest := by
  intro W h a ht
  cases a with
  | client => exact trivial
  | server s t e st r =>
    unfold Replicating.updatesInOrderTest at ht
    unfold Replicating.UpdatesInOrder
    dsimp only at ht ⊢
    split
    · rename_i hrole
      simp only [hrole] at ht
      intro e' u' hp hu' hs
      have := List.all_eq_true.mp ht e' (World.mem_pendingAt hp)
      simpa [hu', hs] using this
    · exact trivial

theorem Replicating.beatsInOrder_tested : Cond.TestedBy R.BeatsInOrder R.beatsInOrderTest := by
  intro W h a ht
  cases a with
  | client => exact trivial
  | server s t e st r =>
    unfold Replicating.beatsInOrderTest at ht
    unfold Replicating.BeatsInOrder
    dsimp only at ht ⊢
    split
    · rename_i hrole
      simp only [hrole] at ht
      intro e' u' hp hu' hs
      have := List.all_eq_true.mp ht e' (World.mem_pendingAt hp)
      simpa [hu', hs] using this
    · exact trivial

theorem Replicating.inOrder_tested : Cond.TestedBy R.InOrder R.inOrderTest := by
  intro W h a ht
  have ht := (Bool.and_eq_true ..).mp ht
  exact ⟨R.updatesInOrder_tested W h a ht.1, R.beatsInOrder_tested W h a ht.2⟩

theorem Replicating.afterBeats_tested : Cond.TestedBy R.AfterBeats R.afterBeatsTest := by
  intro W h a ht
  cases a with
  | client => exact trivial
  | server s t e st r =>
    unfold Replicating.afterBeatsTest at ht
    unfold Replicating.AfterBeats
    dsimp only at ht ⊢
    split
    · rename_i hrole
      simp only [hrole] at ht
      intro t' e' st' r' hm he'
      have := List.all_eq_true.mp ht _ hm
      simpa [he'] using this
    · exact trivial

theorem Replicating.noPassing_tested : Cond.TestedBy R.NoPassing R.noPassingTest := by
  intro W h a ht
  cases a with
  | client => exact trivial
  | server s t e st r =>
    unfold Replicating.noPassingTest at ht
    unfold Replicating.NoPassing
    dsimp only at ht ⊢
    split
    · rename_i hrole
      simp only [hrole] at ht
      exact of_decide_eq_true ht
    · exact trivial

theorem Replicating.noTie_tested : Cond.TestedBy R.NoTie R.noTieTest := by
  intro W h a ht
  cases a with
  | client => exact trivial
  | server s t e st r =>
    unfold Replicating.noTieTest at ht
    unfold Replicating.NoTie
    dsimp only at ht ⊢
    split
    · rename_i hrole
      simp only [hrole] at ht
      exact of_decide_eq_true ht
    · rename_i hrole
      simp only [hrole] at ht
      exact of_decide_eq_true ht
    · exact trivial

/-! ## 3. They enforce the discipline -/

variable {R}

theorem Replicating.NoTie.not_ties {v : View (ServerId c) (ClientId c) E σ κ} {s : ServerId c}
    {t : ℚ} {e : E} {st : σ} {r : Outcome (ServerId c) (ClientId c) E σ}
    (hr : P.serve s t st e = some r) (h : R.NoTie v (.server s t e st r)) :
    ¬Ties (R.view s st).store (R.view s r.state).store := by
  rintro ⟨key, x, hx, latest, hl, ht, hs⟩
  obtain ⟨jobs, hm, -⟩ := R.move hr
  unfold Replicating.NoTie at h
  rcases hm.store key with hsame | ⟨y, hy, hcase⟩
  · exact List.cons_ne_self _ _ (hx.symm.trans hsame)
  obtain rfl := (List.cons.inj (hx.symm.trans hy)).1
  rcases hcase with ⟨⟨id, hid⟩, hsrc, htime⟩ | ⟨u, hu, hxu⟩
  · obtain ⟨k, hk, -, hother⟩ := R.put_key hr hid
    simp only [hid] at h
    by_cases hkey : key = k
    · subst hkey
      have := h key hk latest (by rwa [latestItem_eq]) (ht.trans htime)
      rw [hsrc] at hs
      exact absurd hs (not_lt.mpr this)
    · exact List.cons_ne_self _ _ (hx.symm.trans (hother key hkey))
  · simp only [hu] at h
    obtain ⟨rfl, rfl⟩ := Prod.ext_iff.mp hxu
    exact absurd hs (not_lt.mpr (h latest (by rwa [latestItem_eq]) ht))

/-- Each condition enforces its part of the discipline. -/
theorem Replicating.enforces {C : Cond (ServerId c) (ClientId c) E σ κ} {d : Discipline}
    (hi : d.inOrder → ∀ v a, C v a → R.UpdatesInOrder v a)
    (ho : d.beatsInOrder → ∀ v a, C v a → R.BeatsInOrder v a)
    (hb : d.afterBeats → ∀ v a, C v a → R.AfterBeats v a)
    (hp : d.noPassing → ∀ v a, C v a → R.NoPassing v a)
    (ht : d.noTie → ∀ v a, C v a → R.NoTie v a)
    (hs : d.noStall → ∀ v a, C v a → R.NoStall v a) : R.Enforces C d := by
  intro v s t e st r hr hC
  have hi := fun hd => hi hd v _ hC
  have ho := fun hd => ho hd v _ hC
  have hb := fun hd => hb hd v _ hC
  have hp := fun hd => hp hd v _ hC
  have ht : d.noTie → ¬Ties (R.view s st).store (R.view s r.state).store :=
    fun hd => (ht hd v _ hC).not_ties hr
  have hs := fun hd => hs hd v _ hC
  unfold Replicating.UpdatesInOrder at hi
  unfold Replicating.BeatsInOrder at ho
  unfold Replicating.AfterBeats at hb
  unfold Replicating.NoPassing at hp
  unfold Replicating.NoStall at hs
  unfold Replicating.Allowed
  dsimp only at *
  split <;> rename_i hrole <;> simp only [hrole] at hi ho hb hp hs
  · exact ⟨hb, ht⟩
  · exact ht
  · exact ⟨hi, hs⟩
  · exact hs
  · exact ho
  · exact hp
  · exact trivial

end CCSim
