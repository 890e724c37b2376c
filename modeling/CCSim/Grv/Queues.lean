/-
# The queues of replica updates in `grv`

An update that conflicts and is newer is installed in this protocol, so somebody is always at
work on the first update of a queue.  If the updates of each source are handled in the order in
which they were made, they also arrive at their queues and leave them in that order, and the
assertions of the work on a queue hold in every reachable state (`grv_processed`).

The work on a queue is written in the source as two functions that call each other, each call
with its own look at the queue.  Section 1 writes them like this, with a bound on the depth of the
calls, and shows that twice the length of the queue is enough and that the result is the one the
handlers of this development compute (`grvReplicaUpdateWork_eq`).
-/
import CCSim.Grv.Coverage
import CCSim.Replicas.Queues

namespace CCSim

open Replication

variable {c : Cluster}

/-! ## 1. The two functions that call each other -/

mutual

/-- `grv_process_replica_update_work`, with at most `depth` calls.  The outer `none` says that
these were not enough, the inner one that an assertion failed. -/
def grvReplicaUpdateWork (self : ServerId c) (store : Store (Replica c) (TimeVector c)) :
    ℕ → List (GrvReplicaUpdate c) → GrvReplicaUpdate c →
      Option (Option (List (GrvReplicaUpdate c) × Option (GrvReplicaUpdate c)))
  | 0, _, _ => none
  | depth + 1, queue, update =>
    if update.sourceReplica = self.1 ∨ ¬ownsKey self update.key then some none
    else if update.Conflicts c.replica0 store then
      if update.IsOlder c.replica0 store then
        if update.sourceReplica = sourceReplicaOf c.replica0 (latestItem store update.key) then
          some none
        else grvReplicaUpdateUnlocked self store depth queue update
      else some (some (queue, some update))
    else some (some (queue, some update))

/-- `grv_process_replica_update_vv_unlocked`. -/
def grvReplicaUpdateUnlocked (self : ServerId c) (store : Store (Replica c) (TimeVector c)) :
    ℕ → List (GrvReplicaUpdate c) → GrvReplicaUpdate c →
      Option (Option (List (GrvReplicaUpdate c) × Option (GrvReplicaUpdate c)))
  | 0, _, _ => none
  | _ + 1, [], _ => some none
  | depth + 1, enqueued :: queue, update =>
    if enqueued.version = update.version then
      match queue with
      | [] => some (some ([], none))
      | next :: rest => grvReplicaUpdateWork self store depth (next :: rest) next
    else some none

end

/-- **The recursion ends**, after at most two calls for every update of the queue. -/
theorem grvReplicaUpdateWork_eq (self : ServerId c) (store : Store (Replica c) (TimeVector c))
    (update : GrvReplicaUpdate c) (queue : List (GrvReplicaUpdate c)) {depth : ℕ}
    (hd : 2 * (update :: queue).length ≤ depth) :
    grvReplicaUpdateWork self store depth (update :: queue) update =
      some (replicaUpdateWork (grvUpdateRules self) store (update :: queue)) := by
  induction queue generalizing update depth with
  | nil =>
    obtain ⟨depth, rfl⟩ := Nat.exists_eq_add_of_le' (show 2 ≤ depth from hd)
    simp only [grvReplicaUpdateWork, replicaUpdateWork, grvUpdateRules, grvReplicaUpdateUnlocked]
    grind
  | cons next queue ih =>
    simp only [List.length_cons] at hd ih
    obtain ⟨depth, rfl⟩ := Nat.exists_eq_add_of_le' (show 2 ≤ depth by omega)
    have ih := ih next (show 2 * (queue.length + 1) ≤ depth by omega)
    rw [replicaUpdateWork]
    simp only [grvReplicaUpdateWork, grvReplicaUpdateUnlocked, if_true]
    rw [ih]
    simp only [grvUpdateRules]
    grind

theorem grvReplicaUpdateUnlocked_eq (self : ServerId c)
    (store : Store (Replica c) (TimeVector c)) (update : GrvReplicaUpdate c)
    (queue : List (GrvReplicaUpdate c)) {depth : ℕ} (hd : 2 * queue.length + 1 ≤ depth) :
    grvReplicaUpdateUnlocked self store depth queue update =
      some (replicaUpdateDequeue (grvUpdateRules self) store queue update) := by
  obtain ⟨depth, rfl⟩ := Nat.exists_eq_add_of_le' (show 1 ≤ depth by omega)
  cases queue with
  | nil => rfl
  | cons enqueued queue =>
    simp only [grvReplicaUpdateUnlocked, replicaUpdateDequeue]
    split
    · cases queue with
      | nil => rfl
      | cons next rest =>
        refine grvReplicaUpdateWork_eq self store next rest ?_
        simp only [List.length_cons] at hd ⊢
        omega
    · rfl

/-! ## 2. The queues in a run -/

/-- The lock for the update is asked for or about to be given back. -/
def GrvWorksOn (s : ServerId c) (u : GrvReplicaUpdate c)
    (x : Task (ServerId c) (ClientId c) (GrvEvent c)) : Prop :=
  x.event? = some (s, .replicaUpdateVvLocked u) ∨
    x.event? = some (s, .replicaUpdateVvUnlocked u)

/-- One task is at work on the first update of every queue, and no other task is at work on that
queue. -/
def GrvInProgress (W : GrvWorld c) : Prop :=
  ∀ s j, ∀ u ∈ ((W.servers s).state.replicaUpdateQueues j).head?, ∃ x w rest,
    W.config.pool = x ::ₘ rest ∧ GrvWorksOn s w x ∧ w.version = u.version ∧
    ∀ y ∈ rest, ∀ w', GrvWorksOn s w' y → w'.sourceReplica ≠ j

/-- What has arrived at a queue has left it, in the order of arrival, or is still there; and it
has arrived in the order in which its source made it. -/
def GrvInTurn (W : GrvWorld c) (h : List (GrvAct c)) : Prop :=
  ∀ s j, (grvReplicating c).arrived s j h =
      (grvReplicating c).dequeued s j h ++ (W.servers s).state.replicaUpdateQueues j ∧
    ((grvReplicating c).arrived s j h).Pairwise fun u w => u.updateTime < w.updateTime

/-- No handler of an update that is on its way, or that is about to leave its queue, fails. -/
def GrvAsserts (W : GrvWorld c) : Prop :=
  ∀ x ∈ W.config.pool, ∀ s u t, (W.servers s).state.now ≤ t →
    (x = .pending s (.replicaUpdate u) →
      (grvServerProcessEvent s t (W.servers s).state (.replicaUpdate u)).isSome) ∧
    (x.event? = some (s, .replicaUpdateVvUnlocked u) →
      (grvServerProcessEvent s t (W.servers s).state (.replicaUpdateVvUnlocked u)).isSome)

/-- The two functions return, wherever they are called. -/
def GrvReturns (W : GrvWorld c) : Prop :=
  ∀ s u queue, ∃ depth,
    (grvReplicaUpdateWork s (W.servers s).state.store depth (u :: queue) u).isSome ∧
      (grvReplicaUpdateUnlocked s (W.servers s).state.store depth (u :: queue) u).isSome

theorem grvWorksOn_iff {s : ServerId c} {u : GrvReplicaUpdate c}
    {x : Task (ServerId c) (ClientId c) (GrvEvent c)} :
    (grvReplicating c).WorksOn s u x ↔ GrvWorksOn s u x := by
  constructor
  · rintro ⟨e, he, hrole | hrole⟩
    · exact .inl (grvRole_install.mp hrole ▸ he)
    · exact .inr (grvRole_leave.mp hrole ▸ he)
  · rintro (he | he)
    · exact ⟨_, he, .inl rfl⟩
    · exact ⟨_, he, .inr rfl⟩

/-- **The queues work.**  If the updates of each source are handled in the order in which they
were made, every update that arrives is dequeued once and in this order, the first of every queue
is being processed, no assertion fails and every call returns. -/
theorem grv_processed {setup : Setup c (GrvEvent c)} {W : GrvWorld c} {h : List (GrvAct c)}
    (hrun : World.Run (grvProgram c) setup.conf (grvReplicating c).UpdatesInOrder
      (grvWorld setup) W h) :
    GrvInProgress W ∧ GrvInTurn W h ∧ GrvAsserts W ∧ GrvReturns W := by
  have hE : (grvReplicating c).Enforces (grvReplicating c).UpdatesInOrder
      ⟨True, False, False, False, False, True⟩ :=
    Replicating.enforces (fun _ _ _ h => h) False.elim False.elim False.elim False.elim
      (fun _ v a _ => grv_noStall v a)
  have hfresh := grvWorld_fresh setup
  refine ⟨fun s j u hu => ?_, fun s j => ⟨?_, ?_⟩, fun x hx s u t ht => ⟨?_, ?_⟩,
    fun s u queue => ?_⟩
  · obtain ⟨x, w, rest, hpool, hw, hwu, hrest⟩ :=
      Replicating.in_progress hfresh hE hrun.config trivial s j u hu
    exact ⟨x, w, rest, hpool, grvWorksOn_iff.mp hw, ReplicaUpdate.version_eq hwu,
      fun y hy w' hw' => hrest y hy w' (grvWorksOn_iff.mpr hw')⟩
  · exact Replicating.arrived_eq hfresh hrun.config s j
  · exact (Replicating.arrivals hfresh hE hrun.config trivial s j).sorted
  · rintro rfl
    have := Replicating.enqueue_isSome hfresh hE hrun.config trivial hx (R := grvReplicating c) rfl
    rw [grvServerProcessEvent, if_pos ht]
    exact Option.isSome_map.trans this
  · intro he
    have := Replicating.dequeue_isSome hfresh hE hrun.config trivial hx he
      (R := grvReplicating c) rfl
    rw [grvServerProcessEvent, if_pos ht]
    exact Option.isSome_map.trans this
  · refine ⟨2 * (u :: queue).length + 1, ?_, ?_⟩
    · rw [grvReplicaUpdateWork_eq s _ u queue (Nat.le_succ _)]
      rfl
    · rw [grvReplicaUpdateUnlocked_eq s _ u (u :: queue) le_rfl]
      rfl

/-- In the run with two PUTs, two updates are in the queue of the second replica for a while. -/
theorem grv_processed_puts :
    ∃ W h, World.Run (grvProgram pair) grvPairSetup.conf (grvReplicating pair).UpdatesInOrder
        (grvWorld grvPairSetup) W h ∧
      ((W.servers (serverAt pair 1 0)).state.replicaUpdateQueues
        (serverAt pair 0 0).1).map ReplicaUpdate.value = [7, 8] ∧
      GrvInProgress W ∧ GrvInTurn W h ∧ GrvAsserts W ∧ GrvReturns W := by
  obtain ⟨W, h, hrun, hseen⟩ := World.Run.of_replay (grvProgram pair) grvPairSetup.conf
    (grvWorld grvPairSetup) (grvReplicating pair).updatesInOrder_tested (grvPassingRun.take 23)
    (fun x => decide (((x.1.servers (serverAt pair 1 0)).state.replicaUpdateQueues
      (serverAt pair 0 0).1).map ReplicaUpdate.value = [7, 8])) (by decide +kernel)
  exact ⟨W, h, hrun, of_decide_eq_true hseen, grv_processed hrun⟩

end CCSim
