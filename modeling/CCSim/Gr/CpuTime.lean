/-
# Every handler of `gr` takes time

The lists of calls of `Gr/Calls.lean` take time, or say that they need not
(`grCalls_takesTime`).  For most handlers this is so because a message or a lock call comes last;
the others add a time whose factor is 1 or the size of a structure.  That a server that is no leaf
has children to tell of the stable time is only so if the numbers of partitions do not wrap.
-/
import CCSim.CpuTime
import CCSim.Gr.Calls
import CCSim.Partitions

namespace CCSim

variable {c : Cluster}

/-- Messages and states are not empty. -/
structure Sizes.Positive {E : Type} (sizes : Sizes E) : Prop where
  simulatedSize : ∀ e, 0 < sizes.simulatedSize e
  size : ∀ e, 0 < sizes.size e
  rotxState : 0 < sizes.rotxState

/-- A server that is no leaf has children. -/
theorem childrenPartitions_ne_nil (h : c.numPartitions * (c.treeFanout + 1) < uintSize)
    {q : Partition c} (hleaf : ¬isLeafPartition q = true) : childrenPartitions q ≠ [] := by
  intro hnil
  refine hleaf ((isLeafPartition_iff h q).mpr ?_)
  rw [visitedPartitions_eq, hnil]
  rfl

section Calls

variable {sizes : Sizes (GrEvent c)} {ignoreInitialSeconds : ℚ} {keys : List Key}
  {self : ServerId c} {st : GrServerState c}

theorem grSend_charged (lpid : Lpid c) (e : GrEvent c) :
    (CpuCall.output (grSend lpid e) : GrCall c).isCharged = true := by
  cases lpid <;> rfl

/-- Work on a queue takes time, unless the queue is empty. -/
theorem replicaUpdateWorkCalls_takesTime {S K E R D : Type} [DecidableEq R] [LT R]
    [DecidableRel (α := R) (· < ·)] {rules : UpdateRules R} {store : Store R D}
    {lock : ReplicaUpdate R D → CpuCall S K E} (hlock : ∀ u, (lock u).isCharged = true)
    (queue : List (ReplicaUpdate R D)) :
    callNoTime (replicaUpdateWorkCalls rules store lock queue) = true ∨
      ∀ time saved,
        takesTime (replicaUpdateWorkCalls rules store lock queue) time saved = true := by
  induction queue with
  | nil => exact .inl rfl
  | cons update queue ih =>
    unfold replicaUpdateWorkCalls
    split
    · split
      · refine ih.imp (fun hno => ?_) fun htakes time saved => ?_
        · simpa using hno
        · simp [takesTime, htakes]
      · split
        · exact .inr fun time saved => by simp [takesTime, hlock]
        · exact .inr fun time saved => by simp [takesTime]
    · exact .inr fun time saved => by simp [takesTime, hlock]

theorem grSliceRequestUnlockedCalls_takesTime (request : GrSliceRequest c) (time saved : Bool) :
    takesTime (grSliceRequestUnlockedCalls sizes st request) time saved = true :=
  takesTime_of_charged ⟨_, List.mem_append_right _ (List.mem_cons_of_mem _ List.mem_cons_self), rfl⟩
    _ _

/-- The calls for the values of a slice do not set the time back. -/
theorem grSliceResponseUnlockedCalls_restores (slice : GrSliceResponse c) :
    ∀ a ∈ grSliceResponseUnlockedCalls sizes self st slice, a ≠ .restoreTime := by
  intro a ha
  unfold grSliceResponseUnlockedCalls grSendSnapshotResponseCalls grRotxSnapshotResponseCalls
    grBuild at ha
  rintro rfl
  split at ha
  · cases ha
  · simp only [List.mem_cons, reduceCtorEq, false_or] at ha
    grind

theorem grClockTickUnlockedCalls_takesTime (hsizes : sizes.Positive) (sendTime : Bool)
    (time saved : Bool) : takesTime (grClockTickUnlockedCalls sizes self st sendTime) time saved =
      true := by
  have hpos := hsizes.simulatedSize (.heartbeat ⟨self.1, if sendTime then st.clock else 0⟩)
  unfold grClockTickUnlockedCalls grBuild
  by_cases hothers : (grSendHeartbeat self st sendTime) = []
  · simp [takesTime, hothers, hpos, CpuCall.isCharged]
  · obtain ⟨o, ho⟩ := List.exists_mem_of_ne_nil _ hothers
    refine takesTime_of_charged ⟨.output o, ?_, ?_⟩ _ _
    · exact List.mem_append_left _ (List.mem_cons_of_mem _ (List.mem_map_of_mem ho))
    · obtain ⟨s', -, rfl⟩ := List.mem_map.mp ho
      rfl

/-- Raising the stable time takes time. -/
theorem grUpdateGstCalls_takesTime (gst : ℚ) (o : GrOut c) :
    takesTime (grUpdateGstCalls ignoreInitialSeconds keys self st gst ++ [.output o]) false false =
      true := by
  have houtput : ∀ {calls : List (GrCall c)}, (∀ a ∈ calls, a ≠ .restoreTime) →
      ∀ a ∈ calls ++ [.output o], a ≠ .restoreTime := fun h =>
    List.forall_mem_append.mpr ⟨h, List.forall_mem_singleton.mpr (by rintro ⟨⟩)⟩
  have hrotx : ∀ a ∈ grRotxOnGstUpdatedCalls { st with gst := gst }, a ≠ .restoreTime := by
    intro a ha
    obtain ⟨rotx, -, ha⟩ := List.mem_flatMap.mp ha
    cases rotx with
    | none => cases ha
    | some rotx =>
      rcases List.mem_cons.mp ha with rfl | ha
      · rintro ⟨⟩
      · obtain ⟨o', -, rfl⟩ := List.mem_map.mp ha
        rintro ⟨⟩
  unfold grUpdateGstCalls
  rw [List.cons_append, takesTime]
  show takesTime _ true false = true
  split
  · unfold grStatsGstUpdateCalls
    split
    · exact takesTime_kept (houtput (List.forall_mem_append.mpr ⟨List.forall_mem_nil _, hrotx⟩)) _
    · -- the time before the walk over the store is saved
      exact takesTime_saved _
  · exact takesTime_kept (houtput (List.forall_mem_nil _)) _

/-- **Every handler takes time**, or says that it need not. -/
theorem grCalls_takesTime (hsizes : sizes.Positive)
    (hwrap : c.numPartitions * (c.treeFanout + 1) < uintSize) {e : GrEvent c} {r : GrOutcome c}
    (h : grProcessEvent self st e = some r) : r.noTime = true ∨
      takesTime (grCalls sizes ignoreInitialSeconds keys self st e) false false = true := by
  have hbuild : ∀ e, 0 < sizes.simulatedSize e := hsizes.simulatedSize
  cases e with
  | getSnapshotResponse | rotxResponse | clientTick => cases h
  | getResponse | putResponse | gstFromRoot => exact .inr rfl
  | forwardGetRequestLocked | lstFromLeafRootLocked | gstFromRootLocked | sliceRequestLocked
  | sliceResponseLocked => exact .inr (takesTime_last _ rfl _ _)
  | replicaUpdateLocked => exact .inr (takesTime_last _ rfl _ _)
  | heartbeatLocked | clockTickLocked | getSnapshotRequest => exact .inr rfl
  | heartbeat heartbeat =>
    right
    simp only [grCalls, grHeartbeatCalls]
    split <;> rfl
  | getRequest request =>
    right
    simp only [grCalls, grGetRequestCalls]
    split
    · split
      · rfl
      · exact takesTime_of_charged ⟨_, List.mem_cons_of_mem _ List.mem_cons_self, rfl⟩ _ _
    · split
      · rfl
      · unfold grGetRequestUnlockedCalls
        split
        · rfl
        · exact takesTime_of_charged ⟨_, List.mem_cons_of_mem _ (List.mem_cons_of_mem _
            (List.mem_append_right _ (List.mem_cons_of_mem _ List.mem_cons_self))),
            grSend_charged _ _⟩ _ _
  | getRequestLocked id =>
    right
    simp only [grProcessEvent, grProcessGetRequestLocked] at h
    simp only [grCalls, grGetRequestLockedCalls]
    split
    · rename_i hget
      simp [hget] at h
    · exact takesTime_last _ rfl _ _
  | getRequestUnlocked id =>
    right
    simp only [grProcessEvent, grProcessGetRequestUnlocked] at h
    simp only [grCalls, grGetRequestUnlockedCalls]
    split
    · rename_i hget
      simp [hget] at h
    · exact takesTime_of_charged ⟨_, List.mem_append_right _ (List.mem_cons_of_mem _
        List.mem_cons_self), grSend_charged _ _⟩ _ _
  | putRequest request =>
    right
    simp only [grCalls, grPutRequestCalls]
    split
    · split <;> rfl
    · split <;> rfl
  | putRequestLocked id =>
    right
    simp only [grProcessEvent, grProcessPutRequestLocked] at h
    simp only [grCalls, grPutRequestLockedCalls]
    split
    · rename_i hget
      simp [hget] at h
    · exact takesTime_last _ rfl _ _
  | putRequestUnlocked id =>
    right
    simp only [grProcessEvent, grProcessPutRequestUnlocked] at h
    simp only [grCalls, grPutRequestUnlockedCalls]
    split
    · rename_i hget
      simp [hget] at h
    · rename_i putState hget
      split
      · rename_i hstamp
        simp [hget, hstamp] at h
      · exact takesTime_of_charged ⟨_, List.mem_cons_self, grSend_charged _ _⟩ _ _
  | replicaUpdate update =>
    have hcalls : CpuCall.Describes
        (grCalls sizes ignoreInitialSeconds keys self st (.replicaUpdate update)) r :=
      grCalls_describes h
    rw [← hcalls.noTime]
    simp only [grCalls, grReplicaUpdateCalls]
    split
    · exact (replicaUpdateWorkCalls_takesTime (fun _ => rfl) _).imp_right fun h => h _ _
    · exact .inl rfl
  | replicaUpdateUnlocked update =>
    have hcalls : CpuCall.Describes
        (grCalls sizes ignoreInitialSeconds keys self st (.replicaUpdateUnlocked update)) r :=
      grCalls_describes h
    rw [← hcalls.noTime]
    exact (replicaUpdateWorkCalls_takesTime (fun _ => rfl) _).imp_right fun h => h _ _
  | lstFromLeaf leafLst =>
    right
    simp only [grCalls, grLstFromLeafCalls]
    split
    · split
      · exact takesTime_of_charged ⟨_, List.mem_cons_of_mem _ (List.mem_append_right _
          (List.mem_cons_of_mem _ List.mem_cons_self)), rfl⟩ _ _
      · exact takesTime_of_charged ⟨_, List.mem_cons_of_mem _ (List.mem_append_right _
          (List.mem_cons_of_mem _ (List.mem_cons_of_mem _ List.mem_cons_self))), rfl⟩ _ _
    · rfl
  | lstFromLeafRootUnlocked =>
    right
    simp only [grCalls, grSendGstToChildrenCalls, grBuild, takesTime, hbuild, decide_true,
      Bool.or_true]
    exact takesTime_outputs _ _
  | startGstComputation =>
    right
    simp only [grCalls, grStartGstComputationCalls]
    split
    · exact grUpdateGstCalls_takesTime _ _
    · exact takesTime_of_charged ⟨_, List.mem_append_right _ (List.mem_cons_of_mem _
        List.mem_cons_self), rfl⟩ _ _
  | gstFromRootUnlocked rootGst =>
    simp only [grProcessEvent, grProcessGstFromRootUnlocked] at h
    simp only [grCalls, grGstFromRootUnlockedCalls]
    split at h
    · cases h
      exact .inl rfl
    · rename_i hleaf
      right
      rw [if_neg hleaf]
      obtain ⟨p, hp⟩ := List.exists_mem_of_ne_nil _ (childrenPartitions_ne_nil hwrap hleaf)
      exact takesTime_of_charged ⟨_, List.mem_map_of_mem (List.mem_map_of_mem hp), rfl⟩ _ _
  | getSnapshotRequestLocked id =>
    right
    simp only [grProcessEvent, grProcessGetSnapshotRequestLocked] at h
    simp only [grCalls, grGetSnapshotRequestLockedCalls]
    split
    · rename_i hget
      simp [hget] at h
    · exact takesTime_last _ rfl _ _
  | getSnapshotRequestUnlocked id =>
    right
    simp only [grProcessEvent, grProcessGetSnapshotRequestUnlocked] at h
    simp only [grCalls, grGetSnapshotRequestUnlockedCalls]
    split
    · rename_i hget
      simp [hget] at h
    · simp only [grBuild, takesTime, hbuild, decide_true, Bool.or_true]
      exact takesTime_outputs _ _
  | sliceRequest request =>
    right
    simp only [grCalls, grSliceRequestCalls]
    split
    · rfl
    · simp [takesTime, grSliceRequestUnlockedCalls_takesTime]
  | sliceRequestUnlocked request => exact .inr (grSliceRequestUnlockedCalls_takesTime _ _ _)
  | sliceResponse slice =>
    right
    simp only [grCalls, grSliceResponseCalls]
    split
    · rfl
    · exact takesTime_kept (grSliceResponseUnlockedCalls_restores slice) _
  | sliceResponseUnlocked slice =>
    right
    simp only [grProcessEvent, grProcessSliceResponseUnlocked] at h
    have hrestores : ∀ a ∈ grSliceResponseUnlockedCalls sizes self st slice, a ≠ .restoreTime :=
      grSliceResponseUnlockedCalls_restores slice
    simp only [grCalls]
    unfold grSliceResponseUnlockedCalls at hrestores ⊢
    split
    · rename_i hget
      simp [hget] at h
    · rename_i snapshot hget
      rw [hget] at hrestores
      exact takesTime_kept (List.forall_mem_cons.mp hrestores).2 _
  | rotxRequest request =>
    right
    have hrotx := hsizes.rotxState
    simp only [grCalls, grRotxRequestCalls]
    split <;> simp [takesTime, grBuild, hbuild, hrotx, CpuCall.isCharged]
  | clockTick =>
    right
    simp only [grCalls, grClockTickCalls]
    split
    · rfl
    · simp [takesTime, grClockTickUnlockedCalls_takesTime hsizes]
  | clockTickUnlocked => exact .inr (grClockTickUnlockedCalls_takesTime hsizes _ _ _)

end Calls

end CCSim
