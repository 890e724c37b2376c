/-
# Visibility latencies, in both protocols

The documentation asks for one sample of the visibility latency whenever a value becomes visible.
The samples are taken when the stable time of a server goes up, by a walk over its chains that stops
at the first version which was visible already (`statsGstUpdate`).  So some versions become visible
without a sample: those below a version that a client wrote at the server, or below a received one
that was visible earlier, and those that are visible as soon as they are installed
(`visible_without_sample`).  Apart from these, and as long as no clock is so far ahead that a version
becomes visible before its update time, the samples are what they should be
(`visibility_latency`).
-/
import CCSim.Reads
import CCSim.Replicas.Visibility

namespace CCSim

open Replication

variable {c : Cluster}

/-! ## 1. What `gr` samples -/

/-- `gr_stats_gst_update`, for one key. -/
def grStatsGstUpdate (ignoreInitialSeconds : ℚ) (self : ServerId c) (st : GrServerState c)
    (oldGst newGst : ℚ) (key : Key) : List (GrItem c × ℚ) :=
  if st.now < ignoreInitialSeconds then []
  else statsGstUpdate st.now (grIsValueVisible self oldGst) (grIsValueVisible self newGst)
    (st.store key)

/-- What `gr_update_gst` samples in the handler of an event. -/
def grVisibilityLatency (s : ServerId c) (t : ℚ) (st : GrServerState c) (e : GrEvent c)
    (key : Key) : List (GrItem c × ℚ) :=
  match grNextGst s st e with
  | none => []
  | some gst => if st.gst < gst then grStatsGstUpdate 0 s { st with now := t } st.gst gst key else []

/-- The new test of what is visible, if the handler of an event raises the stable time. -/
def grShows (s : ServerId c) (st : GrServerState c) (e : GrEvent c) : Option (GrItem c → Bool) :=
  match grNextGst s st e with
  | none => none
  | some gst => if st.gst < gst then some (grIsValueVisible s gst) else none

/-- No handler that raises the stable time has to do with versions. -/
theorem grNextGst_role {s : ServerId c} {st : GrServerState c} {e : GrEvent c} {gst : ℚ}
    (h : grNextGst s st e = some gst) : grRole e = .other := by
  cases e <;> first | rfl | cases h

def grSampling (c : Cluster) : Sampling (grReading c) where
  update := grShows
  stats := grVisibilityLatency
  update_role {s t st e r} _ hsome := by
    unfold grShows at hsome
    split at hsome
    · cases hsome
    · exact grNextGst_role (by assumption)
  update_visible {s t st e r} h := by
    have hgst := grProcessEvent_nextGst (grServerProcessEvent_some h)
    rw [grNextGst_now] at hgst
    show grIsValueVisible s r.state.gst = _
    rw [hgst]
    unfold grShows
    split
    · rename_i hnone
      rw [hnone]
      rfl
    · rename_i gst hsome
      rw [hsome, Option.elim_some]
      split <;> rename_i hlt
      · rw [max_eq_right hlt.le]
        rfl
      · rw [max_eq_left (not_lt.mp hlt)]
        rfl
  stats_eq {s t st e key} ht := by
    unfold grVisibilityLatency grShows
    split
    · rfl
    · split
      · rw [Option.elim_some, grStatsGstUpdate, if_neg (not_lt.mpr ht)]
        rfl
      · rfl
  visible_own h := decide_eq_true (.inl h)

/-! ## 2. What `grv` samples -/

/-- `grv_stats_gst_update`, for one key. -/
def grvStatsGstUpdate (ignoreInitialSeconds : ℚ) (self : ServerId c) (st : GrvServerState c)
    (oldGstVector newGstVector : TimeVector c) (key : Key) : List (GrvItem c × ℚ) :=
  if st.now < ignoreInitialSeconds then []
  else statsGstUpdate st.now (grvIsValueVisible self oldGstVector)
    (grvIsValueVisible self newGstVector) (st.store key)

/-- What `grv_update_gst_vector` samples in the handler of an event. -/
def grvVisibilityLatency (s : ServerId c) (t : ℚ) (st : GrvServerState c) (e : GrvEvent c)
    (key : Key) : List (GrvItem c × ℚ) :=
  match grvNextGst s st e with
  | none => []
  | some gstVector =>
    if grvGstVectorNeedUpdate st gstVector then
      grvStatsGstUpdate 0 s { st with now := t } st.gstVector
        (grvUpdateGstVector st gstVector).gstVector key
    else []

def grvShows (s : ServerId c) (st : GrvServerState c) (e : GrvEvent c) :
    Option (GrvItem c → Bool) :=
  match grvNextGst s st e with
  | none => none
  | some gstVector =>
    if grvGstVectorNeedUpdate st gstVector then
      some (grvIsValueVisible s (grvUpdateGstVector st gstVector).gstVector)
    else none

theorem grvNextGst_role {s : ServerId c} {st : GrvServerState c} {e : GrvEvent c}
    {gstVector : TimeVector c} (h : grvNextGst s st e = some gstVector) : grvRole e = .other := by
  cases e <;> first | rfl | cases h

/-- A vector that raises no entry leaves the stable vector as it is. -/
theorem grvUpdateGstVector_same {st : GrvServerState c} {gstVector : TimeVector c}
    (h : ¬grvGstVectorNeedUpdate st gstVector) :
    (grvUpdateGstVector st gstVector).gstVector = st.gstVector := by
  funext i
  rw [grvUpdateGstVector_gstVector]
  refine max_eq_left (not_lt.mp fun hlt => h ?_)
  exact List.any_eq_true.mpr ⟨i, List.mem_finRange i, decide_eq_true hlt⟩

def grvSampling (c : Cluster) : Sampling (grvReading c) where
  update := grvShows
  stats := grvVisibilityLatency
  update_role {s t st e r} _ hsome := by
    unfold grvShows at hsome
    split at hsome
    · cases hsome
    · exact grvNextGst_role (by assumption)
  update_visible {s t st e r} h := by
    have hgst := grvProcessEvent_nextGst (grvServerProcessEvent_some h)
    rw [grvNextGst_now] at hgst
    show grvIsValueVisible s r.state.gstVector = _
    rw [hgst]
    unfold grvShows
    split
    · rename_i hnone
      rw [hnone]
      rfl
    · rename_i gstVector hsome
      rw [hsome, Option.elim_some]
      split <;> rename_i hneed
      · rfl
      · exact congrArg (grvIsValueVisible s) (grvUpdateGstVector_same hneed)
  stats_eq {s t st e key} ht := by
    unfold grvVisibilityLatency grvShows
    split
    · rfl
    · split
      · rw [Option.elim_some, grvStatsGstUpdate, if_neg (not_lt.mpr ht)]
        rfl
      · rfl
  visible_own {s st x} h := by
    show grvIsValueVisible s st.gstVector x
    rw [grvIsValueVisible, decide_eq_true h, Bool.true_or]

/-! ## 3. What the samples say -/

/-- **Visibility latencies.**  In a run in which no version of a key that a server receives is
visible when it is installed, and in which no update of the stable time makes one visible that is
below a version already visible, or ahead of its update time, the server has taken one sample for
each received version that it shows, and none for any other; and no sample is negative. -/
theorem visibility_latency (c : Cluster) :
    (∀ (setup : Setup c (GrEvent c)) (W : GrWorld c) (h : List (GrAct c)) (s : ServerId c)
      (key : Key),
      World.Run (grProgram c) setup.conf (fun _ => (grSampling c).Counts s key) (grWorld setup) W h →
        (((grSampling c).samples s key h).map Prod.fst).Perm
          ((grReading c).shown s (W.servers s).state key) ∧
        ∀ x ∈ (grSampling c).samples s key h, 0 ≤ x.2) ∧
    ∀ (setup : Setup c (GrvEvent c)) (W : GrvWorld c) (h : List (GrvAct c)) (s : ServerId c)
      (key : Key),
      World.Run (grvProgram c) setup.conf (fun _ => (grvSampling c).Counts s key) (grvWorld setup) W
        h →
        (((grvSampling c).samples s key h).map Prod.fst).Perm
          ((grvReading c).shown s (W.servers s).state key) ∧
        ∀ x ∈ (grvSampling c).samples s key h, 0 ≤ x.2 := by
  constructor
  · intro setup W h s key hrun
    have hfresh := grWorld_fresh setup
    have hempty : ∀ s key, ((grReplicating c).view s ((grWorld setup).config.server s)).store key =
        [] := fun s key => by rw [hfresh.view s]
    exact Sampling.sampled (M := grSampling c) (A := W.config) hfresh.now_pos.le hempty
      (fun _ _ hcounts => hcounts) hrun.config
  · intro setup W h s key hrun
    have hfresh := grvWorld_fresh setup
    have hempty : ∀ s key, ((grvReplicating c).view s ((grvWorld setup).config.server s)).store
        key = [] := fun s key => by rw [hfresh.view s]
    exact Sampling.sampled (M := grvSampling c) (A := W.config) hfresh.now_pos.le hempty
      (fun _ _ hcounts => hcounts) hrun.config

/-- The test of `Sampling.Counts`. -/
def Sampling.test {D E σ κ χ : Type} {P : Program (ServerId c) (ClientId c) E σ κ χ}
    {R : Replicating P D} {G : Reading R} (M : Sampling G) (s : ServerId c) (key : Key) :
    CallTest (ServerId c) (ClientId c) E σ κ :=
  fun _ _ a => decide (M.Counts s key a)

theorem Sampling.tested {D E σ κ χ : Type} {P : Program (ServerId c) (ClientId c) E σ κ χ}
    {R : Replicating P D} {G : Reading R} (M : Sampling G) (s : ServerId c) (key : Key) :
    Cond.TestedBy (fun _ => M.Counts (κ := κ) s key) (M.test s key) :=
  fun _ _ _ h => of_decide_eq_true h

theorem rat_half_pos : (0 : ℚ) < 1 / 2 := by
  norm_num

theorem rat_two_fifths_pos : (0 : ℚ) < 2 / 5 := by
  norm_num

/-- Two replicas that compute the stable time often. -/
def quickPair : Cluster :=
  { pair with
    clockInterval := 2 / 5
    gstInterval := 1 / 2
    clockInterval_pos := rat_two_fifths_pos
    gstInterval_pos := rat_half_pos }

def quickSetup (E : Type) : Setup quickPair E :=
  smallSetup E (1 / 10) (by decide +kernel) (by decide +kernel)
    [(1 / 2, clientAt quickPair 0 0 0), (87 / 100, clientAt quickPair 1 0 0)] (by decide +kernel)

/-- A GET and a PUT at the first replica; the second one receives the version, and computes the
stable time after that. -/
def grShowingRun : List (Choice Decision) :=
  choices
    [(1, 0), (2, 0), (4, 0), (4, 0), (4, 2), (4, 2), (6, 0), (8, 0), (0, 1), (0, 1), (0, 0), (6, 0),
      (7, 0), (1, 0), (2, 0), (6, 0), (6, 0), (6, 0), (6, 0), (5, 1), (6, 0), (5, 0), (5, 0), (5, 0),
      (5, 2), (1, 2), (1, 0), (9, 0), (5, 0), (8, 2), (0, 0), (6, 0), (8, 0), (2, 0), (2, 0), (2, 0),
      (5, 0), (5, 0), (3, 0), (4, 0), (4, 0), (4, 0), (4, 0), (0, 1), (0, 1)]
    [(10, .get 0), (21, .put 0 7)] []

def grvShowingRun : List (Choice Decision) :=
  choices
    [(1, 0), (2, 0), (4, 0), (4, 0), (4, 2), (4, 2), (6, 0), (8, 0), (0, 1), (0, 1), (0, 0), (6, 0),
      (7, 0), (1, 0), (2, 0), (6, 0), (6, 0), (6, 0), (6, 0), (5, 1), (6, 0), (5, 0), (5, 0), (5, 0),
      (5, 2), (1, 2), (1, 0), (9, 0), (5, 0), (8, 2), (0, 0), (6, 0), (8, 0), (2, 0), (2, 0), (2, 0),
      (5, 0), (5, 0), (6, 0), (3, 0), (4, 0), (4, 0), (4, 0), (4, 0), (4, 0), (0, 1), (0, 1)]
    [(10, .get 0), (21, .put 0 7)] []

/-- The version that the second replica receives has been sampled, in both protocols. -/
theorem visibility_latency_put :
    (∃ W h, World.Run (grProgram quickPair) (quickSetup _).conf
        (fun _ => (grSampling quickPair).Counts (serverAt quickPair 1 0) 0)
        (grWorld (quickSetup _)) W h ∧
      ((grReading quickPair).shown (serverAt quickPair 1 0)
        (W.servers (serverAt quickPair 1 0)).state 0).length = 1 ∧
      ((grSampling quickPair).samples (serverAt quickPair 1 0) 0 h).length = 1) ∧
    ∃ W h, World.Run (grvProgram quickPair) (quickSetup _).conf
        (fun _ => (grvSampling quickPair).Counts (serverAt quickPair 1 0) 0)
        (grvWorld (quickSetup _)) W h ∧
      ((grvReading quickPair).shown (serverAt quickPair 1 0)
        (W.servers (serverAt quickPair 1 0)).state 0).length = 1 ∧
      ((grvSampling quickPair).samples (serverAt quickPair 1 0) 0 h).length = 1 := by
  constructor
  · obtain ⟨W, h, hrun, hseen⟩ := World.Run.of_replay (grProgram quickPair) (quickSetup _).conf
      (grWorld (quickSetup _))
      ((grSampling quickPair).tested (serverAt quickPair 1 0) 0) grShowingRun
      (fun x => decide (((grReading quickPair).shown (serverAt quickPair 1 0)
        (x.1.servers (serverAt quickPair 1 0)).state 0).length = 1)) (by decide +kernel)
    have hshown := of_decide_eq_true hseen
    have hperm := ((visibility_latency quickPair).1 _ _ _ _ _ hrun).1
    exact ⟨W, h, hrun, hshown, by rw [← List.length_map (f := Prod.fst), hperm.length_eq, hshown]⟩
  · obtain ⟨W, h, hrun, hseen⟩ := World.Run.of_replay (grvProgram quickPair) (quickSetup _).conf
      (grvWorld (quickSetup _))
      ((grvSampling quickPair).tested (serverAt quickPair 1 0) 0) grvShowingRun
      (fun x => decide (((grvReading quickPair).shown (serverAt quickPair 1 0)
        (x.1.servers (serverAt quickPair 1 0)).state 0).length = 1)) (by decide +kernel)
    have hshown := of_decide_eq_true hseen
    have hperm := ((visibility_latency quickPair).2 _ _ _ _ _ hrun).1
    exact ⟨W, h, hrun, hshown, by rw [← List.length_map (f := Prod.fst), hperm.length_eq, hshown]⟩

/-! ## 4. Versions without samples -/

/-- The client of the second replica PUTs the same key, before the stable time reaches the version
that was received. -/
def grCoveringRun : List (Choice Decision) :=
  choices
    [(1, 0), (2, 0), (4, 0), (4, 0), (4, 2), (4, 2), (6, 0), (8, 0), (0, 1), (0, 1), (0, 0), (6, 0),
      (7, 0), (1, 0), (2, 0), (6, 0), (6, 0), (6, 0), (6, 0), (5, 1), (6, 0), (5, 0), (5, 0), (5, 0),
      (5, 2), (1, 2), (1, 0), (9, 0), (5, 0), (8, 2), (0, 0), (6, 0), (8, 0), (2, 0), (2, 0), (2, 0),
      (6, 0), (6, 0), (3, 0), (4, 0), (4, 0), (4, 0), (4, 0), (4, 0), (4, 0), (4, 2), (0, 1), (0, 1)]
    [(10, .get 0), (21, .put 0 7), (30, .put 0 8)] []

def grvCoveringRun : List (Choice Decision) :=
  choices
    [(1, 0), (2, 0), (4, 0), (4, 0), (4, 2), (4, 2), (6, 0), (8, 0), (0, 1), (0, 1), (0, 0), (6, 0),
      (7, 0), (1, 0), (2, 0), (6, 0), (6, 0), (6, 0), (6, 0), (5, 1), (6, 0), (5, 0), (5, 0), (5, 0),
      (5, 2), (1, 2), (1, 0), (9, 0), (5, 0), (8, 2), (0, 0), (6, 0), (8, 0), (2, 0), (2, 0), (2, 0),
      (6, 0), (6, 0), (7, 0), (3, 0), (4, 0), (4, 0), (4, 0), (4, 0), (4, 0), (6, 0), (4, 0), (4, 2),
      (0, 1), (0, 1)]
    [(10, .get 0), (21, .put 0 7), (30, .put 0 8)] []

/-- The version with value 7 is visible at the second replica, which received it, and has not been
sampled: a version of its own lay above it when the stable time went up. -/
theorem visible_without_sample :
    (∃ W h, World.Run (grProgram quickPair) (quickSetup _).conf (fun _ _ => True)
        (grWorld (quickSetup _)) W h ∧
      ((grReading quickPair).shown (serverAt quickPair 1 0)
        (W.servers (serverAt quickPair 1 0)).state 0).map Item.value = [7] ∧
      (grSampling quickPair).samples (serverAt quickPair 1 0) 0 h = []) ∧
    ∃ W h, World.Run (grvProgram quickPair) (quickSetup _).conf (fun _ _ => True)
        (grvWorld (quickSetup _)) W h ∧
      ((grvReading quickPair).shown (serverAt quickPair 1 0)
        (W.servers (serverAt quickPair 1 0)).state 0).map Item.value = [7] ∧
      (grvSampling quickPair).samples (serverAt quickPair 1 0) 0 h = [] := by
  constructor
  · obtain ⟨W, h, hrun, hseen⟩ := World.Run.of_replay (grProgram quickPair) (quickSetup _).conf
      (grWorld (quickSetup _)) Cond.tested_true grCoveringRun
      (fun x => decide (((grReading quickPair).shown (serverAt quickPair 1 0)
          (x.1.servers (serverAt quickPair 1 0)).state 0).map Item.value = [7]) &&
        ((grSampling quickPair).samples (serverAt quickPair 1 0) 0 x.2).isEmpty) (by decide +kernel)
    obtain ⟨hshown, hempty⟩ := Bool.and_eq_true_iff.mp hseen
    exact ⟨W, h, hrun, of_decide_eq_true hshown, List.isEmpty_iff.mp hempty⟩
  · obtain ⟨W, h, hrun, hseen⟩ := World.Run.of_replay (grvProgram quickPair) (quickSetup _).conf
      (grvWorld (quickSetup _)) Cond.tested_true grvCoveringRun
      (fun x => decide (((grvReading quickPair).shown (serverAt quickPair 1 0)
          (x.1.servers (serverAt quickPair 1 0)).state 0).map Item.value = [7]) &&
        ((grvSampling quickPair).samples (serverAt quickPair 1 0) 0 x.2).isEmpty) (by decide +kernel)
    obtain ⟨hshown, hempty⟩ := Bool.and_eq_true_iff.mp hseen
    exact ⟨W, h, hrun, of_decide_eq_true hshown, List.isEmpty_iff.mp hempty⟩

end CCSim
