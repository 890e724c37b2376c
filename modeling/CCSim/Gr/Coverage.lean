/-
# Version-vector coverage and convergence in `gr`

Both properties fail in runs of the simulator.  They hold in runs that meet the conditions of
`Replicas/Conditions.lean`, of which one is stated here in the words of the protocol: `GrNoStall`,
the work on a queue never meets an update that conflicts and is not older than the latest item,
which `gr_process_replica_update_work` neither installs nor drops.

Coverage (`gr_covered`) needs messages in order, PUTs after heartbeats, no heartbeat that passes
a queue and no ties; convergence (`gr_converged`) needs no ties and no stalls.  One run of two
replicas breaks both: two concurrent PUTs, and then a heartbeat.
-/
import CCSim.Gr.Versions
import CCSim.Refinement
import CCSim.Replicas.Conditions

namespace CCSim

open Replication

variable {c : Cluster}

abbrev GrAct (c : Cluster) :=
  Act (ServerId c) (ClientId c) (GrEvent c) (GrServerState c) (GrClientState c)
abbrev GrCond (c : Cluster) :=
  Cond (ServerId c) (ClientId c) (GrEvent c) (GrServerState c) (GrClientState c)
abbrev GrWorld (c : Cluster) :=
  World (ServerId c) (ClientId c) (GrEvent c) (GrServerState c) (GrClientState c)

/-! ## 1. Updates that stall -/

/-- The first update of a queue that is not dropped conflicts with the latest item of its key. -/
def GrBlocked (store : Store (Replica c) Unit) : List (GrReplicaUpdate c) → Prop
  | [] => False
  | u :: queue => u.Conflicts c.replica0 store ∧
      (u.IsOlder c.replica0 store → GrBlocked store queue)

def GrBlocked.decide (store : Store (Replica c) Unit) :
    ∀ queue : List (GrReplicaUpdate c), Decidable (GrBlocked store queue)
  | [] => .isFalse id
  | u :: queue =>
    have := GrBlocked.decide store queue
    inferInstanceAs (Decidable (u.Conflicts c.replica0 store ∧
      (u.IsOlder c.replica0 store → GrBlocked store queue)))

instance (store : Store (Replica c) Unit) (queue : List (GrReplicaUpdate c)) :
    Decidable (GrBlocked store queue) := GrBlocked.decide store queue

/-- The work on a queue never meets an update that conflicts and is not older. -/
def GrNoStall : GrCond c
  | _, .server _ _ (.replicaUpdate u) st _ =>
    st.replicaUpdateQueues u.sourceReplica = [] → ¬GrBlocked st.store [u]
  | _, .server _ _ (.replicaUpdateUnlocked u) st _ =>
    ¬GrBlocked st.store (st.replicaUpdateQueues u.sourceReplica).tail
  | _, _ => True

def grNoStallTest : CallTest (ServerId c) (ClientId c) (GrEvent c) (GrServerState c)
    (GrClientState c)
  | _, _, .server _ _ (.replicaUpdate u) st _ =>
    decide (st.replicaUpdateQueues u.sourceReplica = [] → ¬GrBlocked st.store [u])
  | _, _, .server _ _ (.replicaUpdateUnlocked u) st _ =>
    decide (¬GrBlocked st.store (st.replicaUpdateQueues u.sourceReplica).tail)
  | _, _, _ => true

theorem grNoStall_tested : Cond.TestedBy (GrNoStall (c := c)) grNoStallTest := by
  intro W h a ht
  unfold grNoStallTest at ht
  unfold GrNoStall
  split
  · exact of_decide_eq_true ht
  · exact of_decide_eq_true ht
  · exact trivial

/-- Work that stops has met an update that blocks it. -/
theorem grBlocked_of_stalls {s : ServerId c} {store : Store (Replica c) Unit}
    {queue : List (GrReplicaUpdate c)} (h : Stalls (grUpdateRules s) store queue) :
    GrBlocked store queue := by
  obtain ⟨u, q, h⟩ := h
  induction queue with
  | nil => cases h
  | cons w queue ih =>
    unfold replicaUpdateWork at h
    split at h
    · cases h
    split at h
    · rename_i hc
      refine ⟨hc, fun ho => ?_⟩
      split at h
      · split at h
        · cases h
        · exact ih h
      · exact absurd ho (by assumption)
    · cases h

theorem GrNoStall.noStall {v : View (ServerId c) (ClientId c) (GrEvent c) (GrServerState c)
    (GrClientState c)} {a : GrAct c} (h : GrNoStall v a) : (grReplicating c).NoStall v a := by
  cases a with
  | client => exact trivial
  | server s t e st r =>
    cases e with
    | replicaUpdate u => exact fun hq hst => h hq (grBlocked_of_stalls hst)
    | replicaUpdateUnlocked u => exact fun hst => h (grBlocked_of_stalls hst)
    | clockTickUnlocked b => cases b <;> exact trivial
    | _ => exact trivial

/-! ## 2. Coverage -/

/-- The conditions under which a version vector vouches for what it says. -/
def GrOrderly : GrCond c := fun v a =>
  (grReplicating c).InOrder v a ∧ (grReplicating c).AfterBeats v a ∧
    (grReplicating c).NoPassing v a ∧ (grReplicating c).NoTie v a

theorem grOrderly_tested : Cond.TestedBy (GrOrderly (c := c)) fun W h a =>
    (grReplicating c).inOrderTest W h a && (grReplicating c).afterBeatsTest W h a &&
      (grReplicating c).noPassingTest W h a && (grReplicating c).noTieTest W h a := by
  intro W h a ht
  simp only [Bool.and_eq_true] at ht
  exact ⟨Replicating.inOrder_tested _ W h a ht.1.1.1,
    Replicating.afterBeats_tested _ W h a ht.1.1.2, Replicating.noPassing_tested _ W h a ht.1.2,
    Replicating.noTie_tested _ W h a ht.2⟩

/-- The server `s` has created the version of `u` and sent it to other replicas. -/
def GrReplicated (h : List (GrAct c)) (s : ServerId c) (u : GrReplicaUpdate c) : Prop :=
  ∃ t id st r s', .server s t (.putRequestUnlocked id) st r ∈ h ∧
    .toServer s' (.replicaUpdate u) ∈ r.outs

/-- Every version up to the entry of its source in a version vector is in the store, or the latest
version of its key is newer. -/
def GrCovered (W : GrWorld c) (h : List (GrAct c)) : Prop :=
  ∀ (m j : Replica c) (p : Partition c) (u : GrReplicaUpdate c), j ≠ m →
    GrReplicated h (j, p) u →
    u.updateTime ≤ (W.servers (m, p)).state.versionVector j →
      u.item ∈ (W.servers (m, p)).state.store u.key ∨
        ∃ latest ∈ latestItem (W.servers (m, p)).state.store u.key,
          u.version.Older (latest.version u.key)

/-- What a server sends, it has made. -/
theorem grReplicated_sent {s s' : ServerId c} {t : ℚ} {id : ℕ} {st : GrServerState c}
    {r : GrOutcome c} {u : GrReplicaUpdate c}
    (hr : grServerProcessEvent s t st (.putRequestUnlocked id) = some r)
    (hu : .toServer s' (.replicaUpdate u) ∈ r.outs) : grMaking s st id = some u := by
  obtain ⟨putState, stamp, hget, hstamp, rfl⟩ :=
    grProcessPutRequestUnlocked_some (grServerProcessEvent_some hr)
  rcases List.mem_cons.mp hu with hu | hu
  · have := congrArg Out.event hu
    rw [grSend_event] at this
    cases this
  · split at hu
    · cases hu
    · rename_i hd
      obtain ⟨s'', -, h⟩ := List.mem_map.mp hu
      simp only [Out.toServer.injEq, GrEvent.replicaUpdate.injEq] at h
      have hget : ptrArrayGet st.putStates id = some putState := hget
      simp [grMaking, hget, hstamp, hd, h.2]

/-- **Coverage.**  In every run whose steps meet the conditions, a version-vector entry never runs
ahead of the updates it vouches for. -/
theorem gr_covered {setup : Setup c (GrEvent c)} {W : GrWorld c} {h : List (GrAct c)}
    (hrun : World.Run (grProgram c) setup.conf GrOrderly (grWorld setup) W h) : GrCovered W h := by
  rintro m j p u hj ⟨t, id, st, r, s', hm, hu⟩ hle
  have hr := hrun.config
  have hsent : (grReplicating c).Sent h (j, p) u :=
    ⟨t, _, st, r, id, hm, rfl, grReplicated_sent (hr.served hm) hu⟩
  obtain ⟨hmem, hsrc⟩ := hsent.mem (grWorld_fresh setup) hr
  have hacc : (grReplicating c).Accepted h (j, p) u.stored :=
    Replicating.accepted (grWorld_fresh setup) hr hmem hsrc
  have hE : (grReplicating c).Enforces (GrOrderly (c := c)) ⟨True, True, True, True, True, False⟩ :=
    Replicating.enforces (fun _ _ _ h => h.1.1) (fun _ _ _ h => h.1.2) (fun _ _ _ h => h.2.1)
      (fun _ _ _ h => h.2.2.1) (fun _ _ _ h => h.2.2.2) False.elim
  have hle' : u.updateTime ≤ (grView (m, p) (W.servers (m, p)).state).versionVector j := by
    show u.updateTime ≤ if j = m then 0 else _
    rwa [if_neg hj]
  have := Replicating.covered (grWorld_fresh setup) hE hr trivial trivial trivial trivial trivial
    hj hacc
    hle'
  simp only [latestItem_eq]
  exact this

/-- One PUT at the first replica, and its update at the second. -/
def grPutRun : List (Choice Decision) :=
  choices [(5, 0), (4, 0), (4, 0), (4, 0), (4, 2), (6, 0), (4, 0), (4, 0), (4, 0), (4, 0), (4, 0)]
    [(1, .put 0 7)] []

theorem gr_covered_put :
    ∃ W h, World.Run (grProgram pair) (pairSetup _).conf GrOrderly (grWorld (pairSetup _)) W h ∧
      (W.servers (serverAt pair 1 0)).state.versionVector (serverAt pair 0 0).1 = 61 / 100 ∧
        GrCovered W h := by
  obtain ⟨W, h, hrun, hseen⟩ := World.Run.of_replay (grProgram pair) (pairSetup _).conf
    (grWorld (pairSetup _)) grOrderly_tested grPutRun
    (fun x => decide ((x.1.servers (serverAt pair 1 0)).state.versionVector
      (serverAt pair 0 0).1 = 61 / 100)) (by decide +kernel)
  exact ⟨W, h, hrun, of_decide_eq_true hseen, gr_covered hrun⟩

/-- Two PUTs of one key at the same time, and then a heartbeat of the first replica. -/
def grConflictRun : List (Choice Decision) :=
  choices
    [(5, 0), (4, 0), (4, 0), (5, 0), (5, 2), (4, 0), (6, 0), (6, 0), (6, 2), (8, 0), (4, 0),
      (4, 0), (6, 0), (4, 0), (4, 0), (4, 0), (1, 2), (2, 2), (4, 0), (6, 0), (2, 0), (3, 0),
      (4, 0), (4, 0), (2, 0), (2, 0), (2, 0), (2, 0), (2, 2), (2, 2), (4, 0), (6, 0), (2, 0),
      (3, 0), (4, 0)]
    [(0, .put 0 8), (1, .put 0 7)] []

/-- At `m`, the entry of `j` vouches for a sent version that is newer than all of its key. -/
def grUncovered (W : GrWorld c) (h : List (GrAct c)) (m j : Replica c) (p : Partition c) : Bool :=
  h.any fun a => match a with
    | .server s _ (.putRequestUnlocked _) _ r => decide (s = (j, p)) && r.outs.any fun o =>
      match o with
      | .toServer _ (.replicaUpdate u) =>
        decide (u.updateTime ≤ (W.servers (m, p)).state.versionVector j ∧
          ∀ x ∈ (W.servers (m, p)).state.store u.key, x.updateTime < u.updateTime)
      | _ => false
    | _ => false

theorem not_grCovered_of_grUncovered {W : GrWorld c} {h : List (GrAct c)} {m j : Replica c}
    {p : Partition c} (hj : j ≠ m) (hu : grUncovered W h m j p = true) : ¬GrCovered W h := by
  intro hcov
  obtain ⟨a, ha, hu⟩ := List.any_eq_true.mp hu
  split at hu
  · rename_i s t id st r
    simp only [Bool.and_eq_true, decide_eq_true_eq, List.any_eq_true] at hu
    obtain ⟨rfl, o, ho, hu⟩ := hu
    split at hu
    · rename_i s' u
      obtain ⟨hle, hall⟩ := of_decide_eq_true hu
      exact ReplicaUpdate.not_settled hall (hcov m j p u hj ⟨t, id, st, r, s', ha, ho⟩ hle)
    · cases hu
  · cases hu

/-- In-order delivery alone does not make version vectors safe. -/
theorem gr_not_covered :
    ¬∀ (c : Cluster) (setup : Setup c (GrEvent c)) (W : GrWorld c) (h : List (GrAct c)),
      World.Run (grProgram c) setup.conf (grReplicating c).InOrder (grWorld setup) W h →
        GrCovered W h := by
  intro hall
  obtain ⟨W, h, hrun, hseen⟩ := World.Run.of_replay (grProgram pair) (pairSetup _).conf
    (grWorld (pairSetup _)) (grReplicating pair).inOrder_tested grConflictRun
    (fun x => grUncovered x.1 x.2 (serverAt pair 1 0).1 (serverAt pair 0 0).1 (serverAt pair 0 0).2)
    (by decide +kernel)
  exact not_grCovered_of_grUncovered (by decide) hseen (hall _ _ _ _ hrun)

/-! ## 3. Convergence -/

/-- The conditions under which the replicas of a partition converge. -/
def GrUnopposed : GrCond c := fun v a => (grReplicating c).NoTie v a ∧ GrNoStall v a

theorem grUnopposed_tested :
    Cond.TestedBy (GrUnopposed (c := c)) fun W h a =>
      (grReplicating c).noTieTest W h a && grNoStallTest W h a := by
  intro W h a ht
  simp only [Bool.and_eq_true] at ht
  exact ⟨Replicating.noTie_tested _ W h a ht.1, grNoStall_tested W h a ht.2⟩

/-- An event in which a PUT is executed, or that is about a replica update. -/
def GrEvent.writes : GrEvent c → Bool
  | .putRequestLocked _ => true
  | .putRequestUnlocked _ => true
  | .replicaUpdate _ => true
  | .replicaUpdateLocked _ => true
  | .replicaUpdateUnlocked _ => true
  | _ => false

/-- No PUT is being executed, and no replica update is on its way or waits anywhere. -/
def GrQuiescent (W : GrWorld c) : Prop :=
  ∀ x ∈ W.config.pool, ∀ se ∈ x.event?, se.2.writes = false

instance (W : GrWorld c) : Decidable (GrQuiescent W) :=
  inferInstanceAs (Decidable (∀ x ∈ W.config.pool, ∀ se ∈ x.event?, se.2.writes = false))

/-- The server `s` has put the item on top of the chain of the key. -/
def GrPut (h : List (GrAct c)) (s : ServerId c) (key : Key) (item : GrItem c) : Prop :=
  ∃ t id st r, .server s t (.putRequestLocked id) st r ∈ h ∧
    r.state.store key = item :: st.store key

/-- All replicas of a partition have the same latest item of a key: the newest that was put. -/
def GrConverged (W : GrWorld c) (h : List (GrAct c)) : Prop :=
  ∀ (p : Partition c) (key : Key), ∃ latest : Option (GrItem c),
    (∀ r, latestItem (W.servers (r, p)).state.store key = latest) ∧
    (∀ x ∈ latest, ∃ r, GrPut h (r, p) key x) ∧
    ∀ r y, GrPut h (r, p) key y →
      ∃ x ∈ latest, y = x ∨ (y.version key).Older (x.version key)

/-- **Convergence.**  In every run whose steps meet the conditions, all replicas agree once no PUT
is executed and no update is under way. -/
theorem gr_converged {setup : Setup c (GrEvent c)} {W : GrWorld c} {h : List (GrAct c)}
    (hrun : World.Run (grProgram c) setup.conf GrUnopposed (grWorld setup) W h)
    (hq : GrQuiescent W) : GrConverged W h := by
  have hE : (grReplicating c).Enforces (GrUnopposed (c := c))
      ⟨False, False, False, False, True, True⟩ :=
    Replicating.enforces False.elim False.elim False.elim False.elim (fun _ _ _ h => h.1)
      (fun _ _ _ h => h.2.noStall)
  have hquiet : (grReplicating c).Quiescent W.config := by
    intro x hx se hse
    have hw := hq x hx se hse
    obtain ⟨s, e⟩ := se
    cases e with
    | clockTickUnlocked b => cases b <;> exact trivial
    | _ => first | exact trivial | cases hw
  intro p key
  obtain ⟨latest, hhead, hput, hmax⟩ :=
    Replicating.converged (grWorld_fresh setup) hE hrun.config trivial trivial hquiet p key
  have hiff : ∀ r y, (grReplicating c).Accepted h (r, p) (key, y) ↔ GrPut h (r, p) key y :=
    fun r y => ⟨fun ⟨t, e, st, o, id, hm, he, hst⟩ =>
      ⟨t, id, st, o, grRole_put.mp he ▸ hm, hst⟩, fun ⟨t, id, st, o, hm, hst⟩ =>
      ⟨t, _, st, o, id, hm, rfl, hst⟩⟩
  simp only [hiff] at hput hmax
  exact ⟨latest, fun r => (latestItem_eq _ _).trans (hhead r), hput, hmax⟩

theorem gr_converged_put :
    ∃ W h, World.Run (grProgram pair) (pairSetup _).conf GrUnopposed (grWorld (pairSetup _)) W h ∧
      ((W.servers (serverAt pair 1 0)).state.store 0).map Item.value = [7] ∧
        GrConverged W h := by
  obtain ⟨W, h, hrun, hseen⟩ := World.Run.of_replay (grProgram pair) (pairSetup _).conf
    (grWorld (pairSetup _)) grUnopposed_tested grPutRun
    (fun x => decide (GrQuiescent x.1) &&
      decide (((x.1.servers (serverAt pair 1 0)).state.store 0).map Item.value = [7]))
    (by decide +kernel)
  simp only [Bool.and_eq_true, decide_eq_true_eq] at hseen
  exact ⟨W, h, hrun, hseen.2, gr_converged hrun hseen.1⟩

/-- Replicas that have nothing left to do need not agree. -/
theorem gr_not_converged :
    ¬∀ (c : Cluster) (setup : Setup c (GrEvent c)) (W : GrWorld c) (h : List (GrAct c)),
      World.Run (grProgram c) setup.conf (fun _ _ => True) (grWorld setup) W h →
        GrQuiescent W → GrConverged W h := by
  intro hall
  obtain ⟨W, h, hrun, hseen⟩ := World.Run.of_replay (grProgram pair) (pairSetup _).conf
    (grWorld (pairSetup _)) Cond.tested_true (grConflictRun.take 16)
    (fun x => decide (GrQuiescent x.1) && decide (
      (latestItem (x.1.servers (serverAt pair 0 0)).state.store 0).map Item.value ≠
        (latestItem (x.1.servers (serverAt pair 1 0)).state.store 0).map Item.value))
    (by decide +kernel)
  simp only [Bool.and_eq_true, decide_eq_true_eq] at hseen
  obtain ⟨latest, hhead, -⟩ := hall _ _ _ _ hrun hseen.1 (serverAt pair 0 0).2 0
  exact hseen.2 ((congrArg _ (hhead _)).trans (congrArg _ (hhead _)).symm)

end CCSim
