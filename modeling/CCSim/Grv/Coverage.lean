/-
# Version-vector coverage and convergence in `grv`

Coverage fails here as it does in `gr`, although updates and heartbeats take the same lock: an
update that waits in its queue has not asked for the lock yet, and a heartbeat that comes later
may get it first.  In runs that meet the conditions of `Replicas/Conditions.lean` coverage holds
(`grv_covered`).

An update that conflicts and is newer is installed in this protocol, so no queue stalls, and all
that convergence needs is that there are no ties (`grv_converged`): `grv_put_value` compares only
times, and a PUT may go on top of a version of the same time and a greater source replica.
-/
import CCSim.Grv.Versions
import CCSim.Refinement
import CCSim.Replicas.Conditions

namespace CCSim

open Replication

variable {c : Cluster}

abbrev GrvAct (c : Cluster) :=
  Act (ServerId c) (ClientId c) (GrvEvent c) (GrvServerState c) (GrvClientState c)
abbrev GrvCond (c : Cluster) :=
  Cond (ServerId c) (ClientId c) (GrvEvent c) (GrvServerState c) (GrvClientState c)
abbrev GrvWorld (c : Cluster) :=
  World (ServerId c) (ClientId c) (GrvEvent c) (GrvServerState c) (GrvClientState c)

/-! ## 1. Coverage -/

/-- The conditions under which a version vector vouches for what it says. -/
def GrvOrderly : GrvCond c := fun v a =>
  (grvReplicating c).InOrder v a ∧ (grvReplicating c).AfterBeats v a ∧
    (grvReplicating c).NoPassing v a ∧ (grvReplicating c).NoTie v a

theorem grvOrderly_tested : Cond.TestedBy (GrvOrderly (c := c)) fun W h a =>
    (grvReplicating c).inOrderTest W h a && (grvReplicating c).afterBeatsTest W h a &&
      (grvReplicating c).noPassingTest W h a && (grvReplicating c).noTieTest W h a := by
  intro W h a ht
  simp only [Bool.and_eq_true] at ht
  exact ⟨Replicating.inOrder_tested _ W h a ht.1.1.1,
    Replicating.afterBeats_tested _ W h a ht.1.1.2, Replicating.noPassing_tested _ W h a ht.1.2,
    Replicating.noTie_tested _ W h a ht.2⟩

/-- The server `s` has created the version of `u` and sent it to other replicas. -/
def GrvReplicated (h : List (GrvAct c)) (s : ServerId c) (u : GrvReplicaUpdate c) : Prop :=
  ∃ t id st r s', .server s t (.putRequestUnlocked id) st r ∈ h ∧
    .toServer s' (.replicaUpdate u) ∈ r.outs

/-- Every version up to the entry of its source in a version vector is in the store, or the latest
version of its key is newer. -/
def GrvCovered (W : GrvWorld c) (h : List (GrvAct c)) : Prop :=
  ∀ (m j : Replica c) (p : Partition c) (u : GrvReplicaUpdate c), j ≠ m →
    GrvReplicated h (j, p) u →
    u.updateTime ≤ (W.servers (m, p)).state.versionVector j →
      u.item ∈ (W.servers (m, p)).state.store u.key ∨
        ∃ latest ∈ latestItem (W.servers (m, p)).state.store u.key,
          u.version.Older (latest.version u.key)

/-- What a server sends, it has made. -/
theorem grvReplicated_sent {s s' : ServerId c} {t : ℚ} {id : ℕ} {st : GrvServerState c}
    {r : GrvOutcome c} {u : GrvReplicaUpdate c}
    (hr : grvServerProcessEvent s t st (.putRequestUnlocked id) = some r)
    (hu : .toServer s' (.replicaUpdate u) ∈ r.outs) : grvMaking s st id = some u := by
  obtain ⟨putState, stamp, hget, hstamp, rfl⟩ :=
    grvProcessPutRequestUnlocked_some (grvServerProcessEvent_some hr)
  rcases List.mem_cons.mp hu with hu | hu
  · have := congrArg Out.event hu
    rw [grvSend_event] at this
    cases this
  · split at hu
    · cases hu
    · rename_i hd
      obtain ⟨s'', -, h⟩ := List.mem_map.mp hu
      simp only [Out.toServer.injEq, GrvEvent.replicaUpdate.injEq] at h
      have hget : ptrArrayGet st.putStates id = some putState := hget
      simp [grvMaking, hget, hstamp, hd, h.2]

/-- **Coverage.**  In every run whose steps meet the conditions, a version-vector entry never runs
ahead of the updates it vouches for. -/
theorem grv_covered {setup : Setup c (GrvEvent c)} {W : GrvWorld c} {h : List (GrvAct c)}
    (hrun : World.Run (grvProgram c) setup.conf GrvOrderly (grvWorld setup) W h) :
    GrvCovered W h := by
  rintro m j p u hj ⟨t, id, st, r, s', hm, hu⟩ hle
  have hr := hrun.config
  have hsent : (grvReplicating c).Sent h (j, p) u :=
    ⟨t, _, st, r, id, hm, rfl, grvReplicated_sent (hr.served hm) hu⟩
  obtain ⟨hmem, hsrc⟩ := hsent.mem (grvWorld_fresh setup) hr
  have hacc : (grvReplicating c).Accepted h (j, p) u.stored :=
    Replicating.accepted (grvWorld_fresh setup) hr hmem hsrc
  have hE : (grvReplicating c).Enforces (GrvOrderly (c := c))
      ⟨True, True, True, True, True, False⟩ :=
    Replicating.enforces (fun _ _ _ h => h.1.1) (fun _ _ _ h => h.1.2) (fun _ _ _ h => h.2.1)
      (fun _ _ _ h => h.2.2.1) (fun _ _ _ h => h.2.2.2) False.elim
  have hle' : u.updateTime ≤ (grvView (m, p) (W.servers (m, p)).state).versionVector j := by
    show u.updateTime ≤ if j = m then 0 else _
    rwa [if_neg hj]
  have := Replicating.covered (grvWorld_fresh setup) hE hr trivial trivial trivial trivial trivial
    hj hacc
    hle'
  simp only [latestItem_eq]
  exact this

/-- Two PUTs at the first replica.  The second update waits in the queue of the second replica,
because the first is slow to leave it, and a heartbeat arrives. -/
def grvPassingRun : List (Choice Decision) :=
  choices
    [(4, 0), (4, 0), (4, 0), (4, 0), (4, 0), (4, 0), (4, 2), (4, 0), (7, 2), (6, 0), (8, 0),
      (1, 2), (2, 0), (9, 0), (9, 2), (2, 0), (7, 0), (2, 0), (2, 0), (2, 0), (6, 0), (6, 0),
      (6, 0), (6, 0), (2, 0), (6, 0), (3, 0), (5, 0), (5, 0), (5, 0), (2, 0), (4, 0), (2, 0),
      (3, 2), (3, 0), (6, 2), (5, 0), (7, 0), (3, 0), (6, 0)]
    [(0, .put 0 7), (1, .put 0 8)] [(23, 2)]

/-- Both clients are at the first replica. -/
def grvPairSetup : Setup pair (GrvEvent pair) := nearSetup _

/-- The clock of the second replica is ahead. -/
def skewedPair : Cluster :=
  { pair with
    offset := fun r _ => r.val
    offset_nonneg := fun r _ => Nat.cast_nonneg r.val }

def grvSkewedSetup : Setup skewedPair (GrvEvent skewedPair) :=
  smallSetup _ (1 / 10) (by decide +kernel) (by decide +kernel)
    [(3 / 2, clientAt skewedPair 0 0 0), (1 / 2, clientAt skewedPair 1 0 0)] (by decide +kernel)

/-- After 24 steps the first update is installed. -/
theorem grv_covered_put :
    ∃ W h, World.Run (grvProgram pair) grvPairSetup.conf GrvOrderly (grvWorld grvPairSetup) W h ∧
      (W.servers (serverAt pair 1 0)).state.versionVector (serverAt pair 0 0).1 = 91 / 100 ∧
        GrvCovered W h := by
  obtain ⟨W, h, hrun, hseen⟩ := World.Run.of_replay (grvProgram pair) grvPairSetup.conf
    (grvWorld grvPairSetup) grvOrderly_tested (grvPassingRun.take 24)
    (fun x => decide ((x.1.servers (serverAt pair 1 0)).state.versionVector
      (serverAt pair 0 0).1 = 91 / 100)) (by decide +kernel)
  exact ⟨W, h, hrun, of_decide_eq_true hseen, grv_covered hrun⟩

/-- At `m`, the entry of `j` vouches for a sent version that is newer than all of its key. -/
def grvUncovered (W : GrvWorld c) (h : List (GrvAct c)) (m j : Replica c) (p : Partition c) :
    Bool :=
  h.any fun a => match a with
    | .server s _ (.putRequestUnlocked _) _ r => decide (s = (j, p)) && r.outs.any fun o =>
      match o with
      | .toServer _ (.replicaUpdate u) =>
        decide (u.updateTime ≤ (W.servers (m, p)).state.versionVector j ∧
          ∀ x ∈ (W.servers (m, p)).state.store u.key, x.updateTime < u.updateTime)
      | _ => false
    | _ => false

theorem not_grvCovered_of_grvUncovered {W : GrvWorld c} {h : List (GrvAct c)} {m j : Replica c}
    {p : Partition c} (hj : j ≠ m) (hu : grvUncovered W h m j p = true) : ¬GrvCovered W h := by
  intro hcov
  obtain ⟨a, ha, hu⟩ := List.any_eq_true.mp hu
  split at hu
  · rename_i s t id st r
    simp only [Bool.and_eq_true, decide_eq_true_eq, List.any_eq_true] at hu
    obtain ⟨rfl, o, ho, hu⟩ := hu
    split at hu
    · rename_i s' u
      obtain ⟨hle, hall⟩ := of_decide_eq_true hu
      exact ReplicaUpdate.not_settled hall (hcov m j p u hj ⟨t, id, st, r, s', ha, ho⟩ hle)
    · cases hu
  · cases hu

/-- In-order delivery alone does not make version vectors safe. -/
theorem grv_not_covered :
    ¬∀ (c : Cluster) (setup : Setup c (GrvEvent c)) (W : GrvWorld c) (h : List (GrvAct c)),
      World.Run (grvProgram c) setup.conf (grvReplicating c).InOrder (grvWorld setup) W h →
        GrvCovered W h := by
  intro hall
  obtain ⟨W, h, hrun, hseen⟩ := World.Run.of_replay (grvProgram pair) grvPairSetup.conf
    (grvWorld grvPairSetup) (grvReplicating pair).inOrder_tested grvPassingRun
    (fun x => grvUncovered x.1 x.2 (serverAt pair 1 0).1 (serverAt pair 0 0).1
      (serverAt pair 0 0).2)
    (by decide +kernel)
  exact not_grvCovered_of_grvUncovered (by decide) hseen (hall _ _ _ _ hrun)

/-! ## 2. Convergence -/

/-- Work does not stall: an update that is not dropped is worked on. -/
theorem not_stalls_of_installNewer {rules : UpdateRules (Replica c)}
    {store : Store (Replica c) (TimeVector c)} {queue : List (GrvReplicaUpdate c)}
    (hn : rules.installNewer = true) : ¬Stalls rules store queue := by
  rintro ⟨u, q, h⟩
  induction queue with
  | nil => cases h
  | cons w queue ih =>
    unfold replicaUpdateWork at h
    split at h
    · cases h
    split at h
    · split at h
      · split at h
        · cases h
        · exact ih h
      · cases h
    · cases h

theorem grv_noStall (v : View (ServerId c) (ClientId c) (GrvEvent c) (GrvServerState c)
    (GrvClientState c)) (a : GrvAct c) : (grvReplicating c).NoStall v a := by
  cases a with
  | client => exact trivial
  | server s t e st r =>
    unfold Replicating.NoStall
    dsimp only
    split
    · exact fun _ => not_stalls_of_installNewer rfl
    · exact not_stalls_of_installNewer rfl
    · exact trivial

/-- An event in which a PUT is executed, or that is about a replica update. -/
def GrvEvent.writes : GrvEvent c → Bool
  | .putRequestLocked _ => true
  | .putRequestUnlocked _ => true
  | .replicaUpdate _ => true
  | .replicaUpdateVvLocked _ => true
  | .replicaUpdateVvUnlocked _ => true
  | _ => false

/-- No PUT is being executed, and no replica update is on its way or waits anywhere. -/
def GrvQuiescent (W : GrvWorld c) : Prop :=
  (∀ x ∈ W.config.pool, ∀ se ∈ x.event?, se.2.writes = false) ∧
    ∀ s j, (W.servers s).state.replicaUpdateQueues j = []

instance (W : GrvWorld c) : Decidable (GrvQuiescent W) :=
  inferInstanceAs (Decidable ((∀ x ∈ W.config.pool, ∀ se ∈ x.event?, se.2.writes = false) ∧
    ∀ s j, (W.servers s).state.replicaUpdateQueues j = []))

/-- The server `s` has put the item on top of the chain of the key. -/
def GrvPut (h : List (GrvAct c)) (s : ServerId c) (key : Key) (item : GrvItem c) : Prop :=
  ∃ t id st r, .server s t (.putRequestLocked id) st r ∈ h ∧
    r.state.store key = item :: st.store key

/-- All replicas of a partition have the same latest item of a key: the newest that was put. -/
def GrvConverged (W : GrvWorld c) (h : List (GrvAct c)) : Prop :=
  ∀ (p : Partition c) (key : Key), ∃ latest : Option (GrvItem c),
    (∀ r, latestItem (W.servers (r, p)).state.store key = latest) ∧
    (∀ x ∈ latest, ∃ r, GrvPut h (r, p) key x) ∧
    ∀ r y, GrvPut h (r, p) key y →
      ∃ x ∈ latest, y = x ∨ (y.version key).Older (x.version key)

/-- **Convergence.**  In every run without ties, all replicas agree once no PUT
is executed and no update is under way. -/
theorem grv_converged {setup : Setup c (GrvEvent c)} {W : GrvWorld c} {h : List (GrvAct c)}
    (hrun : World.Run (grvProgram c) setup.conf (grvReplicating c).NoTie (grvWorld setup) W h)
    (hq : GrvQuiescent W) : GrvConverged W h := by
  have hE : (grvReplicating c).Enforces (grvReplicating c).NoTie
      ⟨False, False, False, False, True, True⟩ :=
    Replicating.enforces False.elim False.elim False.elim False.elim (fun _ _ _ h => h)
      (fun _ v a _ => grv_noStall v a)
  have hquiet : (grvReplicating c).Quiescent W.config := by
    intro x hx se hse
    have hw := hq.1 x hx se hse
    obtain ⟨s, e⟩ := se
    cases e with
    | clockTickUnlocked b => cases b <;> exact trivial
    | _ => first | exact trivial | cases hw
  intro p key
  obtain ⟨latest, hhead, hput, hmax⟩ :=
    Replicating.converged (grvWorld_fresh setup) hE hrun.config trivial trivial hquiet p key
  have hiff : ∀ r y, (grvReplicating c).Accepted h (r, p) (key, y) ↔ GrvPut h (r, p) key y :=
    fun r y => ⟨fun ⟨t, e, st, o, id, hm, he, hst⟩ =>
      ⟨t, id, st, o, grvRole_put.mp he ▸ hm, hst⟩, fun ⟨t, id, st, o, hm, hst⟩ =>
      ⟨t, _, st, o, id, hm, rfl, hst⟩⟩
  simp only [hiff] at hput hmax
  exact ⟨latest, fun r => (latestItem_eq _ _).trans (hhead r), hput, hmax⟩

/-- A PUT at the second replica, whose update reaches the first one, and then a PUT there at the
same time of its clock. -/
def grvTieRun : List (Choice Decision) :=
  choices
    [(5, 0), (5, 0), (5, 0), (5, 2), (7, 0), (5, 0), (5, 0), (5, 0), (5, 0), (5, 0), (1, 0),
      (2, 2), (3, 0), (6, 2), (5, 0), (7, 0), (3, 0), (6, 0), (4, 0), (5, 0), (5, 0), (5, 0),
      (2, 0), (4, 0), (4, 0), (4, 2), (6, 0), (4, 0), (4, 0), (4, 0), (4, 0)]
    [(0, .put 0 8), (22, .put 0 7)] []

/-- After 10 steps both replicas have the first version. -/
theorem grv_converged_put :
    ∃ W h, World.Run (grvProgram skewedPair) grvSkewedSetup.conf (grvReplicating skewedPair).NoTie
        (grvWorld grvSkewedSetup) W h ∧
      ((W.servers (serverAt skewedPair 0 0)).state.store 0).map Item.value = [8] ∧
        GrvConverged W h := by
  obtain ⟨W, h, hrun, hseen⟩ := World.Run.of_replay (grvProgram skewedPair) grvSkewedSetup.conf
    (grvWorld grvSkewedSetup) (grvReplicating skewedPair).noTie_tested (grvTieRun.take 10)
    (fun x => decide (GrvQuiescent x.1) &&
      decide (((x.1.servers (serverAt skewedPair 0 0)).state.store 0).map Item.value = [8]))
    (by decide +kernel)
  simp only [Bool.and_eq_true, decide_eq_true_eq] at hseen
  exact ⟨W, h, hrun, hseen.2, grv_converged hrun hseen.1⟩

/-- A server has put a first item of the key on its chain that is newer than the latest item of
the key at `s`. -/
def grvOutdated (W : GrvWorld c) (h : List (GrvAct c)) (s : ServerId c) (key : Key) : Bool :=
  h.any fun a => match a with
    | .server s' _ (.putRequestLocked _) st r => decide (s'.2 = s.2) &&
      match st.store key, r.state.store key with
      | [], [y] => decide (∀ x ∈ latestItem (W.servers s).state.store key,
          (x.version key).Older (y.version key))
      | _, _ => false
    | _ => false

theorem not_grvConverged_of_grvOutdated {W : GrvWorld c} {h : List (GrvAct c)} {s : ServerId c}
    {key : Key} (ho : grvOutdated W h s key = true) : ¬GrvConverged W h := by
  intro hconv
  obtain ⟨a, ha, ho⟩ := List.any_eq_true.mp ho
  split at ho
  · rename_i s' t id st r
    simp only [Bool.and_eq_true, decide_eq_true_eq] at ho
    obtain ⟨hp, ho⟩ := ho
    split at ho
    · rename_i y hst hr
      obtain ⟨latest, hhead, -, hmax⟩ := hconv s.2 key
      obtain ⟨x, hx, hxy⟩ := hmax s'.1 y ⟨t, id, st, r, by rwa [← hp], by rw [hr, hst]⟩
      have hlt := of_decide_eq_true ho x ((hhead s.1).symm ▸ hx)
      rcases hxy with rfl | hxy
      · exact hlt.irrefl
      · exact (hlt.trans hxy).irrefl
    · cases ho
  · cases ho

/-- With equal timestamps, replicas that have nothing left to do need not have the greatest
version. -/
theorem grv_not_converged :
    ¬∀ (c : Cluster) (setup : Setup c (GrvEvent c)) (W : GrvWorld c) (h : List (GrvAct c)),
      World.Run (grvProgram c) setup.conf (fun _ _ => True) (grvWorld setup) W h →
        GrvQuiescent W → GrvConverged W h := by
  intro hall
  obtain ⟨W, h, hrun, hseen⟩ := World.Run.of_replay (grvProgram skewedPair) grvSkewedSetup.conf
    (grvWorld grvSkewedSetup) Cond.tested_true grvTieRun
    (fun x => decide (GrvQuiescent x.1) && grvOutdated x.1 x.2 (serverAt skewedPair 0 0) 0)
    (by decide +kernel)
  simp only [Bool.and_eq_true, decide_eq_true_eq] at hseen
  exact not_grvConverged_of_grvOutdated hseen.2 (hall _ _ _ _ hrun hseen.1)

end CCSim
