/-
# Do statistics disturb the simulation?

The statistics of the visibility latency are taken, when the stable time of a server goes up, with
the same functions that decide what a GET returns, and these use CPU time: `gr_stats_gst_update` and
`grv_stats_gst_update` save the elapsed time and restore it.  They do not restore the random stream,
so with a distribution that takes random values the walk over the store moves the stream on, and all
later CPU times of the server are different.  And the walk only takes place from
`ignore_initial_seconds` on.

So two runs with the same seeds and other values of this parameter may differ
(`statistics_shift_times`).  They are the same as long as no update of a stable time that walks
over a version happens between the two values (`statistics_undisturbed`).
-/
import CCSim.Gr.Frames
import CCSim.Grv.Frames
import CCSim.Gr.Calls
import CCSim.Grv.Calls
import CCSim.Seeded
import CCSim.Replay

namespace CCSim

variable {c : Cluster}

/-! ## 1. Where the calls of `gr` depend on the parameter -/

section Gr

variable {sizes : Sizes (GrEvent c)} {keys : List Key} {self : ServerId c} {st : GrServerState c}

/-- The handler of an event raises the GST. -/
def grRaises (self : ServerId c) (st : GrServerState c) (e : GrEvent c) : Bool :=
  (grNextGst self st e).any fun gst => decide (st.gst < gst)

/-- The walk over all chains. -/
def grStatsWalk (keys : List Key) (self : ServerId c) (st : GrServerState c) : List (GrCall c) :=
  keys.flatMap fun key =>
    statsGstUpdateCalls (grIsValueVisible self st.gst) grIsValueVisibleCalls grIsValueVisibleCalls
      (st.store key)

theorem grStatsWalk_isWalk : IsWalk (grStatsWalk keys self st) := by
  have hitem : ∀ item : GrItem c, ∀ a ∈ grIsValueVisibleCalls item,
      a = .addTime 1 .isValueVisibleTime := by
    intro item a ha
    exact List.mem_singleton.mp ha
  intro a ha
  obtain ⟨key, -, ha⟩ := List.mem_flatMap.mp ha
  exact forall_mem_statsGstUpdateCalls hitem hitem _ a ha

theorem grStatsWalk_empty (h : ∀ key, st.store key = []) : grStatsWalk keys self st = [] := by
  refine List.flatMap_eq_nil_iff.mpr fun key _ => ?_
  rw [h key]
  rfl

theorem grRotxOnGstUpdatedCalls_restore {a : GrCall c} (ha : a ∈ grRotxOnGstUpdatedCalls st) :
    a ≠ .restoreTime := by
  obtain ⟨rotx, -, ha⟩ := List.mem_flatMap.mp ha
  cases rotx with
  | none => cases ha
  | some rotx =>
    rcases List.mem_cons.mp ha with rfl | ha
    · intro h
      cases h
    · obtain ⟨o, -, rfl⟩ := List.mem_map.mp ha
      intro h
      cases h

/-- An update that raises the GST walks over the store, once `ignore_initial_seconds` have passed. -/
theorem grUpdateGstCalls_walksAt {gst : ℚ} (h : decide (st.gst < gst) = true) {call : GrCall c}
    (hcall : call ≠ .restoreTime) :
    WalksAt st.now (grStatsWalk keys self st)
      fun i => grUpdateGstCalls i keys self st gst ++ [call] := by
  refine ⟨[.addTime 1 .updateGstTime], grRotxOnGstUpdatedCalls { st with gst := gst } ++ [call],
    ?_, fun i => ?_⟩
  · intro a ha
    rcases List.mem_append.mp ha with ha | ha
    · exact grRotxOnGstUpdatedCalls_restore ha
    · rwa [List.mem_singleton.mp ha]
  · unfold grUpdateGstCalls grStatsGstUpdateCalls
    dsimp only
    rw [if_pos (of_decide_eq_true h)]
    split
    · rfl
    · simp only [grStatsWalk, List.cons_append, List.append_assoc, List.nil_append]

theorem grUpdateGstCalls_same {gst : ℚ} (h : decide (st.gst < gst) = false) (i j : ℚ) :
    grUpdateGstCalls i keys self st gst = grUpdateGstCalls j keys self st gst := by
  unfold grUpdateGstCalls
  rw [if_neg (of_decide_eq_false h), if_neg (of_decide_eq_false h)]

/-- A handler that does not raise the GST does not look at the parameter. -/
theorem grCalls_same {e : GrEvent c} (h : grRaises self st e = false) (i j : ℚ) :
    grCalls sizes i keys self st e = grCalls sizes j keys self st e := by
  cases e with
  | forwardGetRequestLocked request => exact congrArg (· ++ _) (grUpdateGstCalls_same h i j)
  | getRequestLocked id =>
    simp only [grRaises, grNextGst] at h
    show grGetRequestLockedCalls i keys self st id = grGetRequestLockedCalls j keys self st id
    unfold grGetRequestLockedCalls
    cases hget : ptrArrayGet st.getStates id with
    | none => rfl
    | some getState =>
      rw [hget] at h
      exact congrArg (· ++ _) (grUpdateGstCalls_same h i j)
  | getSnapshotRequestLocked id =>
    simp only [grRaises, grNextGst] at h
    show grGetSnapshotRequestLockedCalls i keys self st id =
      grGetSnapshotRequestLockedCalls j keys self st id
    unfold grGetSnapshotRequestLockedCalls
    cases hget : ptrArrayGet st.snapshotStates id with
    | none => rfl
    | some snapshot =>
      rw [hget] at h
      exact congrArg (· ++ _) (grUpdateGstCalls_same h i j)
  | sliceRequestLocked request => exact congrArg (· ++ _) (grUpdateGstCalls_same h i j)
  | sliceResponseLocked slice => exact congrArg (· ++ _) (grUpdateGstCalls_same h i j)
  | lstFromLeafRootLocked => exact congrArg (· ++ _) (grUpdateGstCalls_same h i j)
  | gstFromRootLocked rootGst => exact congrArg (· ++ _) (grUpdateGstCalls_same h i j)
  | startGstComputation =>
    simp only [grRaises, grNextGst] at h
    show grStartGstComputationCalls sizes i keys self st =
      grStartGstComputationCalls sizes j keys self st
    unfold grStartGstComputationCalls
    by_cases hroot : self.2.val = 0
    · rw [if_pos hroot] at h
      rw [if_pos hroot, if_pos hroot]
      exact congrArg (· ++ _) (grUpdateGstCalls_same h i j)
    · rw [if_neg hroot, if_neg hroot]
  | _ => rfl

/-- A handler that raises it depends on the parameter in the walk only. -/
theorem grCalls_walksAt {e : GrEvent c} (h : grRaises self st e = true) :
    WalksAt st.now (grStatsWalk keys self st) fun i => grCalls sizes i keys self st e := by
  cases e with
  | forwardGetRequestLocked request => exact grUpdateGstCalls_walksAt h (by simp)
  | getRequestLocked id =>
    simp only [grRaises, grNextGst] at h
    show WalksAt _ _ fun i => grGetRequestLockedCalls i keys self st id
    unfold grGetRequestLockedCalls
    cases hget : ptrArrayGet st.getStates id with
    | none =>
      rw [hget] at h
      cases h
    | some getState =>
      rw [hget] at h
      exact grUpdateGstCalls_walksAt h (by simp)
  | getSnapshotRequestLocked id =>
    simp only [grRaises, grNextGst] at h
    show WalksAt _ _ fun i => grGetSnapshotRequestLockedCalls i keys self st id
    unfold grGetSnapshotRequestLockedCalls
    cases hget : ptrArrayGet st.snapshotStates id with
    | none =>
      rw [hget] at h
      cases h
    | some snapshot =>
      rw [hget] at h
      exact grUpdateGstCalls_walksAt h (by simp)
  | sliceRequestLocked request => exact grUpdateGstCalls_walksAt h (by simp)
  | sliceResponseLocked slice => exact grUpdateGstCalls_walksAt h (by simp)
  | lstFromLeafRootLocked => exact grUpdateGstCalls_walksAt h (by simp)
  | gstFromRootLocked rootGst => exact grUpdateGstCalls_walksAt h (by simp)
  | startGstComputation =>
    simp only [grRaises, grNextGst] at h
    show WalksAt _ _ fun i => grStartGstComputationCalls sizes i keys self st
    unfold grStartGstComputationCalls
    by_cases hroot : self.2.val = 0
    · rw [if_pos hroot] at h
      simp only [if_pos hroot]
      exact grUpdateGstCalls_walksAt h (by simp)
    · rw [if_neg hroot] at h
      cases h
  | _ => cases h

end Gr

/-! ## 2. Where the calls of `grv` depend on it -/

section Grv

variable {sizes : Sizes (GrvEvent c)} {keys : List Key} {self : ServerId c}
  {st : GrvServerState c} {gstVector : TimeVector c}

/-- The handler of an event raises some entry of the stable vector. -/
def grvRaises (self : ServerId c) (st : GrvServerState c) (e : GrvEvent c) : Bool :=
  (grvNextGst self st e).any (grvGstVectorNeedUpdate st)

/-- The walk over all chains, when the vector is raised to at least `gstVector`. -/
def grvStatsWalk (keys : List Key) (self : ServerId c) (st : GrvServerState c)
    (gstVector : TimeVector c) : List (GrvCall c) :=
  keys.flatMap fun key =>
    statsGstUpdateCalls (grvIsValueVisible self st.gstVector)
      (grvIsValueVisibleCalls self st.gstVector)
      (grvIsValueVisibleCalls self (grvUpdateGstVector st gstVector).gstVector) (st.store key)

theorem mem_grvIsValueVisibleCalls {v : TimeVector c} {item : GrvItem c} :
    ∀ a ∈ grvIsValueVisibleCalls self v item, a = .addTime 1 .isValueVisibleTime := by
  refine List.forall_mem_cons.mpr ⟨rfl, ?_⟩
  split
  · exact List.forall_mem_nil _
  · generalize List.finRange c.numReplicas = replicas
    induction replicas with
    | nil => exact List.forall_mem_nil _
    | cons i replicas ih =>
      refine List.forall_mem_cons.mpr ⟨rfl, ?_⟩
      split
      · exact List.forall_mem_nil _
      · exact ih

theorem grvStatsWalk_isWalk : IsWalk (grvStatsWalk keys self st gstVector) := by
  intro a ha
  obtain ⟨key, -, ha⟩ := List.mem_flatMap.mp ha
  exact forall_mem_statsGstUpdateCalls (fun _ => mem_grvIsValueVisibleCalls)
    (fun _ => mem_grvIsValueVisibleCalls) _ a ha

theorem grvStatsWalk_empty (h : ∀ key, st.store key = []) :
    grvStatsWalk keys self st gstVector = [] := by
  refine List.flatMap_eq_nil_iff.mpr fun key _ => ?_
  rw [h key]
  rfl

/-- An update that raises the vector, after some calls and before others. -/
theorem grvUpdateGstVectorCalls_walksAt (keys : List Key) (self : ServerId c)
    (h : grvGstVectorNeedUpdate st gstVector = true) (pre : List (GrvCall c))
    {post : List (GrvCall c)} (hpost : ∀ a ∈ post, a ≠ .restoreTime) :
    WalksAt st.now (grvStatsWalk keys self st gstVector)
      fun i => pre ++ (grvUpdateGstVectorCalls i keys self st gstVector ++ post) := by
  refine ⟨pre ++ ((List.finRange c.numReplicas).flatMap fun i =>
    if st.gstVector i < gstVector i then [.addTime 1 .updateGstVectorPerUpdateTime] else []) ++
      [.addTime c.numReplicas .updateGstVectorPerReplicaTime], post, hpost, fun i => ?_⟩
  unfold grvUpdateGstVectorCalls grvStatsGstUpdateCalls
  dsimp only
  rw [if_pos h]
  split
  · simp only [List.append_assoc, List.cons_append, List.nil_append]
  · simp only [grvStatsWalk, List.append_assoc, List.cons_append, List.nil_append]

theorem grvUpdateUnlockCalls_walksAt (h : grvGstVectorNeedUpdate st gstVector = true)
    (e : Option (GrvEvent c)) :
    WalksAt st.now (grvStatsWalk keys self st gstVector)
      fun i => grvUpdateUnlockCalls i keys self st gstVector e := by
  refine grvUpdateGstVectorCalls_walksAt keys self h [] ?_
  intro a ha
  rw [List.mem_singleton.mp ha]
  intro h
  cases h

theorem grvUpdateGstVectorCalls_same (h : grvGstVectorNeedUpdate st gstVector = false) (i j : ℚ) :
    grvUpdateGstVectorCalls i keys self st gstVector =
      grvUpdateGstVectorCalls j keys self st gstVector := by
  unfold grvUpdateGstVectorCalls
  rw [h]
  rfl

/-- A handler that does not raise the vector does not look at the parameter. -/
theorem grvCalls_same {e : GrvEvent c} (h : grvRaises self st e = false) (i j : ℚ) :
    grvCalls sizes i keys self st e = grvCalls sizes j keys self st e := by
  cases e with
  | getRequest request =>
    simp only [grvRaises, grvNextGst] at h
    show grvGetRequestCalls sizes i keys self st request =
      grvGetRequestCalls sizes j keys self st request
    unfold grvGetRequestCalls
    by_cases howns : lpidForKey self request.key ≠ self
    · rw [if_pos howns] at h
      dsimp only
      rw [if_pos howns, if_pos howns, grvUpdateGstVectorCalls_same h i j]
    · dsimp only
      rw [if_neg howns, if_neg howns]
  | forwardedGetRequestLocked request => exact congrArg (· ++ _) (grvUpdateGstVectorCalls_same h i j)
  | getRequestLocked request => exact congrArg (· ++ _) (grvUpdateGstVectorCalls_same h i j)
  | rotxRequestLocked request => exact congrArg (· ++ _) (grvUpdateGstVectorCalls_same h i j)
  | sliceRequestLocked request => exact congrArg (· ++ _) (grvUpdateGstVectorCalls_same h i j)
  | lstFromLeafRootLocked => exact congrArg (· ++ _) (grvUpdateGstVectorCalls_same h i j)
  | gstFromRootLocked rootGst => exact congrArg (· ++ _) (grvUpdateGstVectorCalls_same h i j)
  | startGstComputation =>
    simp only [grvRaises, grvNextGst] at h
    show grvStartGstComputationCalls sizes i keys self st =
      grvStartGstComputationCalls sizes j keys self st
    unfold grvStartGstComputationCalls
    by_cases hroot : self.2.val = 0
    · rw [if_pos hroot] at h
      rw [if_pos hroot, if_pos hroot]
      exact congrArg (· ++ _) (grvUpdateGstVectorCalls_same h i j)
    · rw [if_neg hroot, if_neg hroot]
  | _ => rfl

/-- A handler depends on the parameter in a walk only, if at all.  It does not if an assertion fails
before it gets there. -/
theorem grvCalls_walksAt {e : GrvEvent c} (h : grvNextGst self st e = some gstVector)
    (hneed : grvGstVectorNeedUpdate st gstVector = true) :
    (∀ i j, grvCalls sizes i keys self st e = grvCalls sizes j keys self st e) ∨
      WalksAt st.now (grvStatsWalk keys self st gstVector)
        fun i => grvCalls sizes i keys self st e := by
  cases e with
  | getRequest request =>
    simp only [grvNextGst] at h
    split at h <;> rename_i howns <;> cases h
    by_cases hproxy : request.proxy ≠ none
    · left
      intro i j
      show grvGetRequestCalls sizes i keys self st request =
        grvGetRequestCalls sizes j keys self st request
      unfold grvGetRequestCalls
      dsimp only
      rw [if_pos howns, if_pos hproxy, if_pos howns, if_pos hproxy]
    · right
      show WalksAt _ _ fun i => grvGetRequestCalls sizes i keys self st request
      unfold grvGetRequestCalls
      simp only [if_pos howns, if_neg hproxy, hneed, if_true]
      have hwalks := grvUpdateGstVectorCalls_walksAt keys self hneed
        (.addTime 1 .processGetRequestPreTime ::
          .output (.toServer (lpidForKey self request.key)
            (.getRequest { request with proxy := some self })) ::
          (grvNeedUpdateCalls st request.gstVector ++
            [.lock .mutex grvLockGsv
              (.forwardedGetRequestLocked { request with proxy := some self })]))
        (List.forall_mem_nil _)
      simpa only [List.append_nil, List.cons_append, List.append_assoc, List.nil_append] using hwalks
  | forwardedGetRequestLocked request => cases h; exact .inr (grvUpdateUnlockCalls_walksAt hneed _)
  | getRequestLocked request => cases h; exact .inr (grvUpdateUnlockCalls_walksAt hneed _)
  | rotxRequestLocked request => cases h; exact .inr (grvUpdateUnlockCalls_walksAt hneed _)
  | sliceRequestLocked request => cases h; exact .inr (grvUpdateUnlockCalls_walksAt hneed _)
  | lstFromLeafRootLocked => cases h; exact .inr (grvUpdateUnlockCalls_walksAt hneed _)
  | gstFromRootLocked rootGst => cases h; exact .inr (grvUpdateUnlockCalls_walksAt hneed _)
  | startGstComputation =>
    simp only [grvNextGst] at h
    split at h <;> rename_i hroot <;> cases h
    right
    show WalksAt _ _ fun i => grvStartGstComputationCalls sizes i keys self st
    unfold grvStartGstComputationCalls
    simp only [if_pos hroot]
    refine grvUpdateGstVectorCalls_walksAt keys self hneed [] ?_
    intro a ha
    rw [List.mem_singleton.mp ha]
    intro h
    cases h
  | _ => cases h

end Grv

/-! ## 3. Simulations that differ in the parameter -/

/-- What a simulation is run with, besides `ignore_initial_seconds`: the setup, the sizes of its
structures, the timing and the seeds, and how the kernel and the workloads decide. -/
structure SeededSetup (c : Cluster) (E σ κ U : Type) where
  setup : Setup c E
  sizes : Sizes E
  random : Randomness (ServerId c) U
  pick : Sim (ServerId c) (ClientId c) E σ κ → ℕ
  decision : Sim (ServerId c) (ClientId c) E σ κ → Decision

variable {S K E σ κ U : Type}

abbrev GrSim (c : Cluster) := Sim (ServerId c) (ClientId c) (GrEvent c) (GrServerState c)
  (GrClientState c)
abbrev GrSeededSetup (c : Cluster) (U : Type) := SeededSetup c (GrEvent c) (GrServerState c)
  (GrClientState c) U
abbrev GrvSim (c : Cluster) := Sim (ServerId c) (ClientId c) (GrvEvent c) (GrvServerState c)
  (GrvClientState c)
abbrev GrvSeededSetup (c : Cluster) (U : Type) := SeededSetup c (GrvEvent c) (GrvServerState c)
  (GrvClientState c) U

def grSimulator (Z : GrSeededSetup c U) (ignoreInitialSeconds : ℚ) :
    Simulator (ServerId c) (ClientId c) (GrEvent c) (GrServerState c) (GrClientState c) Decision
      U where
  program := grProgram c
  conf := Z.setup.conf
  random := Z.random
  calls self keys now st e := grCalls { Z.sizes with simulatedSize := Z.setup.simulatedSize }
    ignoreInitialSeconds keys self { st with now := now, clock := c.clock self now } e
  pick := Z.pick
  decision := Z.decision

def grvSimulator (Z : GrvSeededSetup c U) (ignoreInitialSeconds : ℚ) :
    Simulator (ServerId c) (ClientId c) (GrvEvent c) (GrvServerState c) (GrvClientState c)
      Decision U where
  program := grvProgram c
  conf := Z.setup.conf
  random := Z.random
  calls self keys now st e := grvCalls { Z.sizes with simulatedSize := Z.setup.simulatedSize }
    ignoreInitialSeconds keys self { st with now := now, clock := c.clock self now } e
  pick := Z.pick
  decision := Z.decision

/-- The state after `n` events. -/
def grRun (Z : GrSeededSetup c U) (ignoreInitialSeconds : ℚ) (n : ℕ) : Option (GrSim c) :=
  (grSimulator Z ignoreInitialSeconds).run (.start (grWorld Z.setup)) n

def grvRun (Z : GrvSeededSetup c U) (ignoreInitialSeconds : ℚ) (n : ℕ) : Option (GrvSim c) :=
  (grvSimulator Z ignoreInitialSeconds).run (.start (grvWorld Z.setup)) n

/-- The next handler takes no random value for the statistics under only one of the two values `i`
and `j` of the parameter: no random values are taken at all, or the handler does not raise the stable
time, or its time is on the same side of both, or no version is stored at the server. -/
def GrUndisturbed (Z : GrSeededSetup c U) (i j : ℚ) (X : GrSim c) : Prop :=
  Z.random.distribution = .constant ∨
    ∀ s t e, (grSimulator Z i).next X = some (s, t, e) →
      grRaises s (X.world.servers s).state e = true →
        (t < i ↔ t < j) ∨ ∀ key, (X.world.servers s).state.store key = []

def GrvUndisturbed (Z : GrvSeededSetup c U) (i j : ℚ) (X : GrvSim c) : Prop :=
  Z.random.distribution = .constant ∨
    ∀ s t e, (grvSimulator Z i).next X = some (s, t, e) →
      grvRaises s (X.world.servers s).state e = true →
        (t < i ↔ t < j) ∨ ∀ key, (X.world.servers s).state.store key = []

/-- Under the condition, the next handler spends the same time with both values. -/
theorem GrUndisturbed.agrees {Z : GrSeededSetup c U} {i j : ℚ} {X : GrSim c}
    (h : GrUndisturbed Z i j X) : (grSimulator Z i).Agrees (grSimulator Z j).calls X := by
  intro s t e hnext
  have hraises : grRaises s { (X.world.servers s).state with now := t, clock := c.clock s t } e =
      grRaises s (X.world.servers s).state e := congrArg (Option.any _) (grNextGst_now t _)
  cases hr : grRaises s (X.world.servers s).state e with
  | false => exact .of_eq (grCalls_same (hraises.trans hr) i j)
  | true =>
    refine (grCalls_walksAt (hraises.trans hr)).sameUse grStatsWalk_isWalk ?_ _
    rcases h with hconstant | h
    · exact .inl hconstant
    · rcases h s t e hnext hr with hside | hempty
      · exact .inr (.inl hside)
      · exact .inr (.inr (grStatsWalk_empty hempty))

theorem GrvUndisturbed.agrees {Z : GrvSeededSetup c U} {i j : ℚ} {X : GrvSim c}
    (h : GrvUndisturbed Z i j X) : (grvSimulator Z i).Agrees (grvSimulator Z j).calls X := by
  intro s t e hnext
  have hgst : grvNextGst s { (X.world.servers s).state with now := t, clock := c.clock s t } e =
      grvNextGst s (X.world.servers s).state e := grvNextGst_now t _
  cases hr : grvRaises s (X.world.servers s).state e with
  | false => exact .of_eq (grvCalls_same ((congrArg (Option.any _) hgst).trans hr) i j)
  | true =>
    obtain ⟨gstVector, hsome, hneed⟩ := (Option.any_eq_true _ _).mp hr
    rcases grvCalls_walksAt (hgst.trans hsome) hneed with hnone | hwalks
    · exact .of_eq (hnone i j)
    · refine hwalks.sameUse grvStatsWalk_isWalk ?_ _
      rcases h with hconstant | h
      · exact .inl hconstant
      · rcases h s t e hnext hr with hside | hempty
        · exact .inr (.inl hside)
        · exact .inr (.inr (grvStatsWalk_empty hempty))

/-- **Statistics do not disturb the simulation**, as long as no update of a stable time that walks
over stored versions happens between the two values of `ignore_initial_seconds`: with the same setup,
timing, seeds and workloads, the events, the times and the states are the same. -/
theorem statistics_undisturbed (c : Cluster) (U : Type) (i j : ℚ) (n : ℕ) :
    (∀ Z : GrSeededSetup c U,
      (∀ k < n, ∀ X, grRun Z i k = some X → GrUndisturbed Z i j X) →
        grRun Z i n = grRun Z j n) ∧
    ∀ Z : GrvSeededSetup c U,
      (∀ k < n, ∀ X, grvRun Z i k = some X → GrvUndisturbed Z i j X) →
        grvRun Z i n = grvRun Z j n := by
  constructor
  · intro Z h
    exact Simulator.run_congr fun k hk X hX => (h k hk X hX).agrees
  · intro Z h
    exact Simulator.run_congr fun k hk X hX => (h k hk X hX).agrees

/-! ## 4. A run that the statistics disturb -/

/-- One server, with a client. -/
def lone : Cluster :=
  { smallCluster 1 1 one_lt_uintSize one_lt_uintSize fun _ _ => 0 with
    gstInterval := 3 / 4
    gstInterval_pos := by decide +kernel }

/-- The first event of the smallest time. -/
def firstEvent (X : Sim S K E σ κ) : ℕ :=
  X.world.events.findIdx fun ev => X.world.events.all fun ev' => decide (ev.1 ≤ ev'.1)

/-- The client PUTs one value and then does nothing.  All timing parameters are 1/1000, the
distribution is exponential, and the random values are 1 and 2 in turn. -/
def loneSimulation (E σ κ : Type) : SeededSetup lone E σ κ ℚ where
  setup :=
    { smallSetup E (1 / 10) (by decide +kernel) (by decide +kernel)
        [(1 / 2, clientAt lone 0 0 0)] (by decide +kernel) with
      network := ⟨fun _ _ => some (1 / 10), fun _ => 1000⟩
      simulatedSize := fun _ => 1 }
  sizes := byteSizes E
  random :=
    { distribution := .exponential
      time := fun _ => 1 / 1000
      generator := ⟨fun u => u, fun mean u => mean * u⟩
      stream := fun _ k => if k % 2 = 0 then 1 else 2 }
  pick := firstEvent
  decision X := if X.processed.isEmpty then .put 0 7 else .nothing

/-- When the last event was processed. -/
def Sim.lastTime (X : Sim S K E σ κ) : Option ℚ := X.processed.head?.map Prod.fst

/-- With the same seed the twelfth event is at another time, if the update of the stable time at 3/4
falls into the initial seconds that are ignored. -/
theorem statistics_shift_times :
    ((grRun (loneSimulation _ _ _) 0 12).bind Sim.lastTime = some (1502 / 1000) ∧
      (grRun (loneSimulation _ _ _) 100 12).bind Sim.lastTime = some (1503 / 1000)) ∧
    (grvRun (loneSimulation _ _ _) 0 12).bind Sim.lastTime = some (1504 / 1000) ∧
      (grvRun (loneSimulation _ _ _) 100 12).bind Sim.lastTime = some (1505 / 1000) := by
  decide +kernel

/-- If all handlers run when both values have passed, the runs are the same. -/
theorem statistics_undisturbed_lone :
    grRun (loneSimulation _ _ _) 0 12 = grRun (loneSimulation _ _ _) (1 / 2) 12 ∧
      grvRun (loneSimulation _ _ _) 0 12 = grvRun (loneSimulation _ _ _) (1 / 2) 12 := by
  have hgr : ∀ k < 12, (grRun (loneSimulation _ _ _) 0 k).all fun X =>
      ((grSimulator (loneSimulation _ _ _) 0).next X).all fun x => decide (1 / 2 ≤ x.2.1) := by
    decide +kernel
  have hgrv : ∀ k < 12, (grvRun (loneSimulation _ _ _) 0 k).all fun X =>
      ((grvSimulator (loneSimulation _ _ _) 0).next X).all fun x => decide (1 / 2 ≤ x.2.1) := by
    decide +kernel
  have hside : ∀ t : ℚ, decide (1 / 2 ≤ t) = true → (t < 0 ↔ t < 1 / 2) := by
    intro t ht
    have hle := of_decide_eq_true ht
    exact iff_of_false (not_lt.mpr (le_trans (by norm_num) hle)) (not_lt.mpr hle)
  constructor
  · refine (statistics_undisturbed lone ℚ 0 (1 / 2) 12).1 _ fun k hk X hX => .inr ?_
    intro s t e hnext _
    have hall := hgr k hk
    rw [hX, Option.all_some, hnext] at hall
    exact .inl (hside t hall)
  · refine (statistics_undisturbed lone ℚ 0 (1 / 2) 12).2 _ fun k hk X hX => .inr ?_
    intro s t e hnext _
    have hall := hgrv k hk
    rw [hX, Option.all_some, hnext] at hall
    exact .inl (hside t hall)

end CCSim
