/-
# Version vectors and the order of messages, in both protocols

The times that a server sends to another one never decrease (`sent_in_order`).  Its version vector
can go backwards: an update that has its lock writes its time into the vector without looking at
what is there, and a heartbeat may have got there first (`version_vector_goes_back`).  It does not
in runs whose messages are handled in order and in which no heartbeat passes an update that waits
in its queue (`version_vectors_grow`).
-/
import CCSim.Gr.Coverage
import CCSim.Gr.Frames
import CCSim.Grv.Coverage
import CCSim.Grv.Frames
import CCSim.Replicas.Senders

namespace CCSim

open Replication

variable {c : Cluster}

/-! ## 1. Runs with two PUTs -/

/-- The choice at a step of a run. -/
def choiceAt (run : List (Choice Decision)) (n : ℕ) : Choice Decision :=
  run.getD n (Choice.steady 0 0 0 .nothing)

/-- Both clients are at the first replica. -/
def grPairSetup : Setup pair (GrEvent pair) := nearSetup _

/-- Two PUTs at the first replica.  The second update waits in the queue of the second replica
while a heartbeat is applied, and is installed after it. -/
def grPassingRun : List (Choice Decision) :=
  choices
    [(4, 0), (4, 0), (4, 0), (4, 0), (4, 0), (4, 0), (4, 2), (4, 0), (7, 2), (6, 0), (8, 0),
      (1, 2), (2, 0), (9, 0), (9, 2), (2, 0), (7, 0), (2, 0), (2, 0), (2, 0), (6, 0), (6, 0),
      (6, 0), (6, 0), (2, 0), (6, 0), (3, 0), (5, 0), (5, 0), (2, 0), (4, 0), (2, 0), (3, 2),
      (3, 0), (6, 2), (5, 0), (7, 0), (3, 0), (6, 0), (4, 0), (5, 0), (5, 0), (5, 0), (2, 0)]
    [(0, .put 0 7), (1, .put 0 8)] [(23, 2)]

/-- The run in which coverage fails, and on to where the second update is installed. -/
def grvPassedRun : List (Choice Decision) :=
  grvPassingRun ++ choices [(4, 0), (5, 0), (5, 0), (5, 0), (2, 0)] [] []

/-! ## 2. Senders -/

/-- **Sender order.**  The update times and the heartbeat times other than zero that a server
hands to the network for another server never decrease. -/
theorem sent_in_order (c : Cluster) :
    (∀ (setup : Setup c (GrEvent c)) (C : GrCond c) (W : GrWorld c) (h : List (GrAct c)),
      World.Run (grProgram c) setup.conf C (grWorld setup) W h → ∀ s peer,
        ((grReplicating c).sentTimes s peer h).Pairwise (· ≤ ·)) ∧
    ∀ (setup : Setup c (GrvEvent c)) (C : GrvCond c) (W : GrvWorld c) (h : List (GrvAct c)),
      World.Run (grvProgram c) setup.conf C (grvWorld setup) W h → ∀ s peer,
        ((grvReplicating c).sentTimes s peer h).Pairwise (· ≤ ·) :=
  ⟨fun setup _ _ _ hrun s peer =>
    (Replicating.outgoing (grWorld_fresh setup) hrun.config s peer).sorted,
  fun setup _ _ _ hrun s peer =>
    (Replicating.outgoing (grvWorld_fresh setup) hrun.config s peer).sorted⟩

theorem sent_in_order_puts :
    (∃ W h, World.Run (grProgram pair) grPairSetup.conf (fun _ _ => True) (grWorld grPairSetup)
        W h ∧
      (grReplicating pair).sentTimes (serverAt pair 0 0) (serverAt pair 1 0) h =
        [91 / 100, 23 / 25, 51 / 25] ∧
      ((grReplicating pair).sentTimes (serverAt pair 0 0) (serverAt pair 1 0) h).Pairwise
        (· ≤ ·)) ∧
    ∃ W h, World.Run (grvProgram pair) grvPairSetup.conf (fun _ _ => True) (grvWorld grvPairSetup)
        W h ∧
      (grvReplicating pair).sentTimes (serverAt pair 0 0) (serverAt pair 1 0) h =
        [91 / 100, 23 / 25, 51 / 25] ∧
      ((grvReplicating pair).sentTimes (serverAt pair 0 0) (serverAt pair 1 0) h).Pairwise
        (· ≤ ·) := by
  constructor
  · obtain ⟨W, h, hrun, hseen⟩ := World.Run.of_replay (grProgram pair) grPairSetup.conf
      (grWorld grPairSetup) Cond.tested_true grPassingRun
      (fun x => decide ((grReplicating pair).sentTimes (serverAt pair 0 0) (serverAt pair 1 0)
        x.2 = [91 / 100, 23 / 25, 51 / 25])) (by decide +kernel)
    exact ⟨W, h, hrun, of_decide_eq_true hseen, (sent_in_order pair).1 _ _ _ _ hrun _ _⟩
  · obtain ⟨W, h, hrun, hseen⟩ := World.Run.of_replay (grvProgram pair) grvPairSetup.conf
      (grvWorld grvPairSetup) Cond.tested_true grvPassingRun
      (fun x => decide ((grvReplicating pair).sentTimes (serverAt pair 0 0) (serverAt pair 1 0)
        x.2 = [91 / 100, 23 / 25, 51 / 25])) (by decide +kernel)
    exact ⟨W, h, hrun, of_decide_eq_true hseen, (sent_in_order pair).2 _ _ _ _ hrun _ _⟩

/-! ## 3. Version vectors -/

/-- The conditions under which a version vector does not go backwards. -/
def GrInTime : GrCond c := fun v a =>
  (grReplicating c).InOrder v a ∧ (grReplicating c).AfterBeats v a ∧
    (grReplicating c).NoPassing v a

def GrvInTime : GrvCond c := fun v a =>
  (grvReplicating c).InOrder v a ∧ (grvReplicating c).AfterBeats v a ∧
    (grvReplicating c).NoPassing v a

theorem gr_own_entry {s : ServerId c} {t : ℚ} {st : GrServerState c} {e : GrEvent c}
    {r : GrOutcome c} (h : grServerProcessEvent s t st e = some r)
    (hu : ∀ u, grRole e = .install u → u.sourceReplica ≠ s.1)
    (hb : ∀ j y, grRole e = .raise j y → j ≠ s.1) :
    r.state.versionVector s.1 = st.versionVector s.1 ∨
      r.state.versionVector s.1 = c.clock s t := by
  rw [grProcessEvent_vector (grServerProcessEvent_some h)]
  exact grVectorAfter_own (fun u he => hu u (by rw [he]; rfl)) fun q he => hb _ _ (by rw [he]; rfl)

theorem grv_own_entry {s : ServerId c} {t : ℚ} {st : GrvServerState c} {e : GrvEvent c}
    {r : GrvOutcome c} (h : grvServerProcessEvent s t st e = some r)
    (hu : ∀ u, grvRole e = .install u → u.sourceReplica ≠ s.1)
    (hb : ∀ j y, grvRole e = .raise j y → j ≠ s.1) :
    r.state.versionVector s.1 = st.versionVector s.1 ∨
      r.state.versionVector s.1 = c.clock s t := by
  rw [grvProcessEvent_vector (grvServerProcessEvent_some h)]
  exact grvVectorAfter_own (fun u he => hu u (by rw [he]; rfl)) fun q he =>
    hb _ _ (by rw [he]; rfl)

/-- **Version vectors do not go backwards**, in a step of a run in which all messages are handled
in order, PUTs get their lock after the heartbeats sent before and no heartbeat passes an update
that waits in its queue. -/
theorem version_vectors_grow (c : Cluster) :
    (∀ (setup : Setup c (GrEvent c)) (W W' : GrWorld c) (h : List (GrAct c))
      (choice : Choice Decision) (a : Option (GrAct c)),
      World.Run (grProgram c) setup.conf GrInTime (grWorld setup) W h →
      W.step (grProgram c) setup.conf choice = some (W', a) →
      (∀ x ∈ a, GrInTime (W.config.view h) x) →
        ∀ s i, (W.servers s).state.versionVector i ≤ (W'.servers s).state.versionVector i) ∧
    ∀ (setup : Setup c (GrvEvent c)) (W W' : GrvWorld c) (h : List (GrvAct c))
      (choice : Choice Decision) (a : Option (GrvAct c)),
      World.Run (grvProgram c) setup.conf GrvInTime (grvWorld setup) W h →
      W.step (grvProgram c) setup.conf choice = some (W', a) →
      (∀ x ∈ a, GrvInTime (W.config.view h) x) →
        ∀ s i, (W.servers s).state.versionVector i ≤ (W'.servers s).state.versionVector i := by
  constructor
  · intro setup W W' h choice a hrun hstep hc
    have hE : (grReplicating c).Enforces (GrInTime (c := c))
        ⟨True, True, True, True, False, False⟩ :=
      Replicating.enforces (fun _ _ _ h => h.1.1) (fun _ _ _ h => h.1.2) (fun _ _ _ h => h.2.1)
        (fun _ _ _ h => h.2.2) False.elim False.elim
    have hfresh := grWorld_fresh setup
    refine hrun.step_rule (Φ := fun A A' => ∀ s i, (A.server s).versionVector i ≤
      (A'.server s).versionVector i) (fun _ _ _ => le_rfl)
      (fun h h' s i => (h s i).trans (h' s i)) (fun hr hs _ s i => ?_) hstep hc
    exact Replicating.vectors_grow (R := grReplicating c) gr_own_entry
      (fun s => (clock_pos s setup.start_pos).le) (fun s st j hj => if_neg hj) hfresh hE hr trivial
      trivial trivial trivial hs s i
  · intro setup W W' h choice a hrun hstep hc
    have hE : (grvReplicating c).Enforces (GrvInTime (c := c))
        ⟨True, True, True, True, False, False⟩ :=
      Replicating.enforces (fun _ _ _ h => h.1.1) (fun _ _ _ h => h.1.2) (fun _ _ _ h => h.2.1)
        (fun _ _ _ h => h.2.2) False.elim False.elim
    have hfresh := grvWorld_fresh setup
    refine hrun.step_rule (Φ := fun A A' => ∀ s i, (A.server s).versionVector i ≤
      (A'.server s).versionVector i) (fun _ _ _ => le_rfl)
      (fun h h' s i => (h s i).trans (h' s i)) (fun hr hs _ s i => ?_) hstep hc
    exact Replicating.vectors_grow (R := grvReplicating c) grv_own_entry
      (fun s => (clock_pos s setup.start_pos).le) (fun s st j hj => if_neg hj) hfresh hE hr trivial
      trivial trivial trivial hs s i

def grInTimeTest (W : GrWorld c) (h : List (GrAct c)) (a : GrAct c) : Bool :=
  (grReplicating c).inOrderTest W h a && (grReplicating c).afterBeatsTest W h a &&
    (grReplicating c).noPassingTest W h a

def grvInTimeTest (W : GrvWorld c) (h : List (GrvAct c)) (a : GrvAct c) : Bool :=
  (grvReplicating c).inOrderTest W h a && (grvReplicating c).afterBeatsTest W h a &&
    (grvReplicating c).noPassingTest W h a

theorem grInTime_tested : Cond.TestedBy (GrInTime (c := c)) grInTimeTest := by
  intro W h a ht
  rw [grInTimeTest] at ht
  simp only [Bool.and_eq_true] at ht
  exact ⟨Replicating.inOrder_tested _ W h a ht.1.1,
    Replicating.afterBeats_tested _ W h a ht.1.2, Replicating.noPassing_tested _ W h a ht.2⟩

theorem grvInTime_tested : Cond.TestedBy (GrvInTime (c := c)) grvInTimeTest := by
  intro W h a ht
  rw [grvInTimeTest] at ht
  simp only [Bool.and_eq_true] at ht
  exact ⟨Replicating.inOrder_tested _ W h a ht.1.1,
    Replicating.afterBeats_tested _ W h a ht.1.2, Replicating.noPassing_tested _ W h a ht.2⟩

/-- The first update is installed in step 21 of these runs. -/
theorem version_vectors_grow_installed :
    (∃ W W' h a, World.Run (grProgram pair) grPairSetup.conf GrInTime (grWorld grPairSetup) W h ∧
      W.step (grProgram pair) grPairSetup.conf (choiceAt grPassingRun 21) = some (W', a) ∧
      (W'.servers (serverAt pair 1 0)).state.versionVector (serverAt pair 0 0).1 = 91 / 100 ∧
      ∀ s i, (W.servers s).state.versionVector i ≤ (W'.servers s).state.versionVector i) ∧
    ∃ W W' h a, World.Run (grvProgram pair) grvPairSetup.conf GrvInTime (grvWorld grvPairSetup)
        W h ∧
      W.step (grvProgram pair) grvPairSetup.conf (choiceAt grvPassedRun 21) = some (W', a) ∧
      (W'.servers (serverAt pair 1 0)).state.versionVector (serverAt pair 0 0).1 = 91 / 100 ∧
      ∀ s i, (W.servers s).state.versionVector i ≤ (W'.servers s).state.versionVector i := by
  constructor
  · obtain ⟨W, h, W', a, hrun, hstep, hc, hvec⟩ := World.Run.of_replay_step (grProgram pair)
      grPairSetup.conf (grWorld grPairSetup) grInTime_tested (grPassingRun.take 21)
      (choiceAt grPassingRun 21)
      (fun _ W' => decide ((W'.servers (serverAt pair 1 0)).state.versionVector
        (serverAt pair 0 0).1 = 91 / 100)) (by decide +kernel)
    exact ⟨W, W', h, a, hrun, hstep, of_decide_eq_true hvec,
      (version_vectors_grow pair).1 _ _ _ _ _ _ hrun hstep hc⟩
  · obtain ⟨W, h, W', a, hrun, hstep, hc, hvec⟩ := World.Run.of_replay_step (grvProgram pair)
      grvPairSetup.conf (grvWorld grvPairSetup) grvInTime_tested (grvPassedRun.take 21)
      (choiceAt grvPassedRun 21)
      (fun _ W' => decide ((W'.servers (serverAt pair 1 0)).state.versionVector
        (serverAt pair 0 0).1 = 91 / 100)) (by decide +kernel)
    exact ⟨W, W', h, a, hrun, hstep, of_decide_eq_true hvec,
      (version_vectors_grow pair).2 _ _ _ _ _ _ hrun hstep hc⟩

/-- In-order handling alone does not keep version vectors from going backwards, in either
protocol. -/
theorem version_vector_goes_back :
    (¬∀ (c : Cluster) (setup : Setup c (GrEvent c)) (W W' : GrWorld c) (h : List (GrAct c))
      (choice : Choice Decision) (a : Option (GrAct c)),
      World.Run (grProgram c) setup.conf (grReplicating c).InOrder (grWorld setup) W h →
      W.step (grProgram c) setup.conf choice = some (W', a) →
      (∀ x ∈ a, (grReplicating c).InOrder (W.config.view h) x) →
        ∀ s i, (W.servers s).state.versionVector i ≤ (W'.servers s).state.versionVector i) ∧
    ¬∀ (c : Cluster) (setup : Setup c (GrvEvent c)) (W W' : GrvWorld c) (h : List (GrvAct c))
      (choice : Choice Decision) (a : Option (GrvAct c)),
      World.Run (grvProgram c) setup.conf (grvReplicating c).InOrder (grvWorld setup) W h →
      W.step (grvProgram c) setup.conf choice = some (W', a) →
      (∀ x ∈ a, (grvReplicating c).InOrder (W.config.view h) x) →
        ∀ s i, (W.servers s).state.versionVector i ≤ (W'.servers s).state.versionVector i := by
  constructor
  · intro hall
    obtain ⟨W, h, W', a, hrun, hstep, hc, hvec⟩ := World.Run.of_replay_step (grProgram pair)
      grPairSetup.conf (grWorld grPairSetup) (grReplicating pair).inOrder_tested
      (grPassingRun.take 43) (choiceAt grPassingRun 43)
      (fun W W' => decide ((W'.servers (serverAt pair 1 0)).state.versionVector
        (serverAt pair 0 0).1 < (W.servers (serverAt pair 1 0)).state.versionVector
        (serverAt pair 0 0).1)) (by decide +kernel)
    exact absurd (hall _ _ _ _ _ _ _ hrun hstep hc _ _) (not_le.mpr (of_decide_eq_true hvec))
  · intro hall
    obtain ⟨W, h, W', a, hrun, hstep, hc, hvec⟩ := World.Run.of_replay_step (grvProgram pair)
      grvPairSetup.conf (grvWorld grvPairSetup) (grvReplicating pair).inOrder_tested
      (grvPassedRun.take 44) (choiceAt grvPassedRun 44)
      (fun W W' => decide ((W'.servers (serverAt pair 1 0)).state.versionVector
        (serverAt pair 0 0).1 < (W.servers (serverAt pair 1 0)).state.versionVector
        (serverAt pair 0 0).1)) (by decide +kernel)
    exact absurd (hall _ _ _ _ _ _ _ hrun hstep hc _ _) (not_le.mpr (of_decide_eq_true hvec))

end CCSim
