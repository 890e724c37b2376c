/-
# Every handler of `grv` takes time

The counterpart of `Gr/CpuTime.lean`, for the lists of `Grv/Calls.lean`.  The handler of a slice
adds a time for each of its values, so that a slice without values takes no time: that there is none
is known of runs.
-/
import CCSim.Gr.CpuTime
import CCSim.Grv.Calls

namespace CCSim

variable {c : Cluster}

section Calls

variable {sizes : Sizes (GrvEvent c)} {ignoreInitialSeconds : ℚ} {keys : List Key}
  {self : ServerId c} {st : GrvServerState c}

theorem grvSend_charged (lpid : Lpid c) (e : GrvEvent c) :
    (CpuCall.output (grvSend lpid e) : GrvCall c).isCharged = true := by
  cases lpid <;> rfl

/-- A comparison of vectors adds a time for each entry. -/
theorem grvNeedUpdateCalls_times (gstVector : TimeVector c) :
    ∀ a ∈ grvNeedUpdateCalls st gstVector, ∃ factor t, a = .addTime factor t := by
  unfold grvNeedUpdateCalls
  generalize List.finRange c.numReplicas = replicas
  induction replicas with
  | nil => exact List.forall_mem_nil _
  | cons i replicas ih =>
    refine List.forall_mem_cons.mpr ⟨⟨_, _, rfl⟩, ?_⟩
    split
    · exact List.forall_mem_nil _
    · exact ih

theorem grvGetRequestUnlockedCalls_takesTime (request : GrvGetRequest c) (time saved : Bool) :
    takesTime (grvGetRequestUnlockedCalls sizes self st request) time saved = true :=
  takesTime_of_charged ⟨_, List.mem_append_right _ (List.mem_cons_of_mem _ List.mem_cons_self),
    grvSend_charged _ _⟩ _ _

theorem grvSliceRequestUnlockedCalls_takesTime (request : GrvSliceRequest c) (time saved : Bool) :
    takesTime (grvSliceRequestUnlockedCalls sizes self st request) time saved = true :=
  takesTime_of_charged ⟨_, List.mem_append_right _ (List.mem_cons_of_mem _ List.mem_cons_self), rfl⟩
    _ _

theorem grvRotxRequestUnlockedCalls_takesTime (hsizes : sizes.Positive)
    (request : GrvRotxRequest c) (time saved : Bool) :
    takesTime (grvRotxRequestUnlockedCalls sizes self st request) time saved = true := by
  have hrotx : 0 < sizes.rotxState + sizes.key * request.keys.length :=
    Nat.add_pos_left hsizes.rotxState _
  simp only [grvRotxRequestUnlockedCalls, takesTime, CpuCall.isCharged, hrotx, decide_true,
    Bool.or_true, Bool.false_or]
  refine takesTime_kept (fun a ha => ?_) _
  obtain ⟨p, -, ha⟩ := List.mem_flatMap.mp ha
  rintro rfl
  unfold grvSendSliceCalls at ha
  split at ha <;> simp at ha

theorem grvClockTickUnlockedCalls_takesTime (hsizes : sizes.Positive) (sendTime saved : Bool)
    (time : Bool) : takesTime (grvClockTickUnlockedCalls sizes self st sendTime) time saved =
      true := by
  have hpos := hsizes.size (.heartbeat ⟨self.1, if sendTime then st.clock else 0⟩)
  simp only [grvClockTickUnlockedCalls, List.cons_append, takesTime, hpos, decide_true,
    Bool.or_true, CpuCall.isCharged, Bool.false_or]
  refine takesTime_kept (fun a ha => ?_) _
  rcases List.mem_append.mp ha with ha | ha
  · obtain ⟨o, -, rfl⟩ := List.mem_map.mp ha
    rintro ⟨⟩
  · rw [List.mem_singleton.mp ha]
    rintro ⟨⟩

/-- Raising the stable vector takes time. -/
theorem grvUpdateGstVectorCalls_takesTime (gstVector : TimeVector c) (o : GrvOut c) :
    takesTime (grvUpdateGstVectorCalls ignoreInitialSeconds keys self st gstVector ++ [.output o])
      false false = true := by
  have hpos := c.numReplicas_pos
  unfold grvUpdateGstVectorCalls
  rw [List.append_assoc]
  refine takesTime_after (fun a ha => ?_) (fun time => ?_) _
  · obtain ⟨i, -, ha⟩ := List.mem_flatMap.mp ha
    split at ha
    · exact ⟨_, _, List.mem_singleton.mp ha⟩
    · cases ha
  simp only [List.cons_append, takesTime, hpos, decide_true, Bool.or_true, CpuCall.isCharged,
    Bool.false_or]
  split
  · unfold grvStatsGstUpdateCalls
    split
    · exact takesTime_outputs [o] false
    · exact takesTime_saved _
  · exact takesTime_outputs [o] false

/-- **Every handler takes time**, or says that it need not, if every slice has values. -/
theorem grvCalls_takesTime (hsizes : sizes.Positive) {e : GrvEvent c} {r : GrvOutcome c}
    (h : grvProcessEvent self st e = some r)
    (hslice : ∀ slice, e = .sliceResponse slice → slice.values ≠ []) : r.noTime = true ∨
      takesTime (grvCalls sizes ignoreInitialSeconds keys self st e) false false = true := by
  have hreplicas := c.numReplicas_pos
  cases e with
  | rotxResponse | clientTick => cases h
  | getResponse | putResponse => exact .inr rfl
  | forwardedGetRequestLocked | getRequestLocked | lstFromLeafRootLocked | gstFromRootLocked
  | sliceRequestLocked | rotxRequestLocked => exact .inr (takesTime_last _ rfl _ _)
  | replicaUpdateVvLocked | gstFromRoot => exact .inr (takesTime_last _ rfl _ _)
  | heartbeat | heartbeatLocked | clockTickLocked => exact .inr rfl
  | gstFromRootUnlocked =>
    cases h
    exact .inl rfl
  | getRequest request =>
    right
    simp only [grvCalls, grvGetRequestCalls]
    split
    · split
      · rfl
      · exact takesTime_of_charged ⟨_, List.mem_cons_of_mem _ List.mem_cons_self, rfl⟩ _ _
    · split
      · rw [← List.cons_append]
        exact takesTime_last _ rfl _ _
      · exact takesTime_of_charged ⟨_, List.mem_cons_of_mem _ (List.mem_append_right _
          (List.mem_append_right _ (List.mem_cons_of_mem _ List.mem_cons_self))),
          grvSend_charged _ _⟩ _ _
  | getRequestUnlocked request => exact .inr (grvGetRequestUnlockedCalls_takesTime _ _ _)
  | putRequest request =>
    right
    simp only [grvCalls, grvPutRequestCalls]
    split
    · split <;> rfl
    · split <;> rfl
  | putRequestLocked id =>
    right
    simp only [grvProcessEvent, grvProcessPutRequestLocked] at h
    simp only [grvCalls, grvPutRequestLockedCalls]
    split
    · rename_i hget
      simp [hget] at h
    · exact takesTime_last _ rfl _ _
  | putRequestUnlocked id =>
    right
    simp only [grvProcessEvent, grvProcessPutRequestUnlocked] at h
    simp only [grvCalls, grvPutRequestUnlockedCalls]
    split
    · rename_i hget
      simp [hget] at h
    · rename_i putState hget
      split
      · rename_i hstamp
        simp [hget, hstamp] at h
      · exact takesTime_of_charged ⟨_, List.mem_cons_of_mem _ List.mem_cons_self,
          grvSend_charged _ _⟩ _ _
  | replicaUpdate update =>
    have hcalls : CpuCall.Describes
        (grvCalls sizes ignoreInitialSeconds keys self st (.replicaUpdate update)) r :=
      grvCalls_describes h
    rw [← hcalls.noTime]
    simp only [grvCalls, grvReplicaUpdateCalls]
    split
    · exact (replicaUpdateWorkCalls_takesTime (fun _ => rfl) _).imp_right fun h => h _ _
    · exact .inl rfl
  | replicaUpdateVvUnlocked update =>
    have hcalls : CpuCall.Describes
        (grvCalls sizes ignoreInitialSeconds keys self st (.replicaUpdateVvUnlocked update)) r :=
      grvCalls_describes h
    rw [← hcalls.noTime]
    exact (replicaUpdateWorkCalls_takesTime (fun _ => rfl) _).imp_right fun h => h _ _
  | lstFromLeaf leafLst =>
    right
    simp only [grvCalls, grvLstFromLeafCalls, takesTime, hreplicas, decide_true, Bool.or_true,
      CpuCall.isCharged, Bool.false_or]
    split
    · split
      · rfl
      · exact takesTime_last [_, _] rfl _ _
    · rfl
  | lstFromLeafRootUnlocked =>
    right
    have hsize := hsizes.size (.gstFromRoot ⟨st.gstVector⟩)
    simp only [grvCalls, grvSendGstToChildrenCalls, takesTime, hsize, decide_true, Bool.or_true,
      CpuCall.isCharged, Bool.false_or]
    exact takesTime_outputs _ _
  | startGstComputation =>
    right
    simp only [grvCalls, grvStartGstComputationCalls]
    split
    · exact grvUpdateGstVectorCalls_takesTime _ _
    · exact takesTime_of_charged ⟨_, List.mem_cons_of_mem _ List.mem_cons_self, rfl⟩ _ _
  | sliceRequest request =>
    left
    simp only [grvProcessEvent, grvProcessSliceRequest] at h
    split at h
    · cases h
      rfl
    · split at h
      · cases h
        rfl
      · obtain ⟨r', -, rfl⟩ := Option.map_eq_some_iff.mp h
        rfl
  | sliceRequestUnlocked request => exact .inr (grvSliceRequestUnlockedCalls_takesTime _ _ _)
  | sliceResponse slice =>
    right
    have hvalues : 0 < slice.values.length := List.length_pos_iff.mpr (hslice slice rfl)
    simp only [grvProcessEvent, grvProcessSliceResponse] at h
    simp only [grvCalls, grvSliceResponseCalls]
    split
    · rename_i hget
      simp [hget] at h
    · simp only [takesTime, hvalues, decide_true, Bool.or_true, CpuCall.isCharged, Bool.false_or]
      split
      · exact takesTime_last [_] rfl _ _
      · rfl
  | rotxRequest request =>
    right
    simp only [grvCalls, grvRotxRequestCalls]
    split
    · exact takesTime_last _ rfl _ _
    · exact takesTime_after (grvNeedUpdateCalls_times request.gstVector)
        (fun _ => grvRotxRequestUnlockedCalls_takesTime hsizes _ _ _) _
  | rotxRequestUnlocked request => exact .inr (grvRotxRequestUnlockedCalls_takesTime hsizes _ _ _)
  | clockTick =>
    right
    simp only [grvCalls, grvClockTickCalls]
    split
    · rfl
    · simp [takesTime, grvClockTickUnlockedCalls_takesTime hsizes]
  | clockTickUnlocked => exact .inr (grvClockTickUnlockedCalls_takesTime hsizes _ _ _)

end Calls

end CCSim
