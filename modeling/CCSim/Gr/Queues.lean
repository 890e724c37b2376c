/-
# The queues of replica updates in `gr`

What arrives at a queue leaves it in order.  But a queue can come to a halt: an update that
conflicts with the latest item and is not older than it is neither installed nor dropped, and
nobody comes back to it (`gr_not_in_progress`).  In runs without such updates somebody is always
at work on the first update of a queue (`gr_in_progress`).
-/
import CCSim.Gr.Coverage
import CCSim.Replicas.Queues

namespace CCSim

open Replication

variable {c : Cluster}

/-- The lock for the update is asked for or about to be given back. -/
def GrWorksOn (s : ServerId c) (u : GrReplicaUpdate c)
    (x : Task (ServerId c) (ClientId c) (GrEvent c)) : Prop :=
  x.event? = some (s, .replicaUpdateLocked u) ∨ x.event? = some (s, .replicaUpdateUnlocked u)

/-- One task is at work on the first update of every queue, and no other task is at work on that
queue. -/
def GrInProgress (W : GrWorld c) : Prop :=
  ∀ s j, ∀ u ∈ ((W.servers s).state.replicaUpdateQueues j).head?, ∃ x w rest,
    W.config.pool = x ::ₘ rest ∧ GrWorksOn s w x ∧ w.version = u.version ∧
    ∀ y ∈ rest, ∀ w', GrWorksOn s w' y → w'.sourceReplica ≠ j

/-- What has arrived at a queue has left it, in the order of arrival, or is still there. -/
def GrInTurn (W : GrWorld c) (h : List (GrAct c)) : Prop :=
  ∀ s j, (grReplicating c).arrived s j h =
    (grReplicating c).dequeued s j h ++ (W.servers s).state.replicaUpdateQueues j

theorem grWorksOn_iff {s : ServerId c} {u : GrReplicaUpdate c}
    {x : Task (ServerId c) (ClientId c) (GrEvent c)} :
    (grReplicating c).WorksOn s u x ↔ GrWorksOn s u x := by
  constructor
  · rintro ⟨e, he, hrole | hrole⟩
    · exact .inl (grRole_install.mp hrole ▸ he)
    · exact .inr (grRole_leave.mp hrole ▸ he)
  · rintro (he | he)
    · exact ⟨_, he, .inl rfl⟩
    · exact ⟨_, he, .inr rfl⟩

/-- **Progress.**  If the work on a queue never meets an update that conflicts and is not older,
the first update of every queue is being processed, and updates leave in the order in which they
arrived. -/
theorem gr_in_progress {setup : Setup c (GrEvent c)} {W : GrWorld c} {h : List (GrAct c)}
    (hrun : World.Run (grProgram c) setup.conf GrNoStall (grWorld setup) W h) :
    GrInProgress W ∧ GrInTurn W h := by
  have hE : (grReplicating c).Enforces (GrNoStall (c := c))
      ⟨False, False, False, False, False, True⟩ :=
    Replicating.enforces False.elim False.elim False.elim False.elim False.elim
      (fun _ _ _ h => h.noStall)
  refine ⟨fun s j u hu => ?_, Replicating.arrived_eq (grWorld_fresh setup) hrun.config⟩
  obtain ⟨x, w, rest, hpool, hw, hwu, hrest⟩ :=
    Replicating.in_progress (grWorld_fresh setup) hE hrun.config trivial s j u hu
  exact ⟨x, w, rest, hpool, grWorksOn_iff.mp hw, ReplicaUpdate.version_eq hwu,
    fun y hy w' hw' => hrest y hy w' (grWorksOn_iff.mpr hw')⟩

/-- After nine steps of the run with one PUT, its update is in the queue of the second replica. -/
theorem gr_in_progress_put :
    ∃ W h, World.Run (grProgram pair) (pairSetup _).conf GrNoStall (grWorld (pairSetup _)) W h ∧
      ((W.servers (serverAt pair 1 0)).state.replicaUpdateQueues
        (serverAt pair 0 0).1).map ReplicaUpdate.value = [7] ∧
      GrInProgress W ∧ GrInTurn W h := by
  obtain ⟨W, h, hrun, hseen⟩ := World.Run.of_replay (grProgram pair) (pairSetup _).conf
    (grWorld (pairSetup _)) grNoStall_tested (grPutRun.take 9)
    (fun x => decide (((x.1.servers (serverAt pair 1 0)).state.replicaUpdateQueues
      (serverAt pair 0 0).1).map ReplicaUpdate.value = [7])) (by decide +kernel)
  exact ⟨W, h, hrun, of_decide_eq_true hseen, gr_in_progress hrun⟩

/-- The update of a concurrent PUT that is newer stays in its queue, and nobody works on it. -/
theorem gr_not_in_progress :
    ¬∀ (c : Cluster) (setup : Setup c (GrEvent c)) (W : GrWorld c) (h : List (GrAct c)),
      World.Run (grProgram c) setup.conf (fun _ _ => True) (grWorld setup) W h →
        GrInProgress W := by
  intro hall
  obtain ⟨W, h, hrun, hseen⟩ := World.Run.of_replay (grProgram pair) (pairSetup _).conf
    (grWorld (pairSetup _)) Cond.tested_true (grConflictRun.take 16)
    (fun x => decide (GrQuiescent x.1) && decide (((x.1.servers
      (serverAt pair 1 0)).state.replicaUpdateQueues (serverAt pair 0 0).1).head?.isSome))
    (by decide +kernel)
  simp only [Bool.and_eq_true, decide_eq_true_eq] at hseen
  obtain ⟨u, hu⟩ := Option.isSome_iff_exists.mp hseen.2
  obtain ⟨x, w, rest, hpool, hw, -⟩ := hall _ _ _ _ hrun _ _ u hu
  have hx : x ∈ W.config.pool := by
    rw [hpool]
    exact Multiset.mem_cons_self _ _
  rcases hw with hw | hw <;> cases hseen.1 x hx _ hw

end CCSim
