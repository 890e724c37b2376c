/-
# Rounds of the global stable vector in `grv`

The same as for `gr`, for every entry `i` of the vectors.  A server tells its children of a new
vector before it takes the lock to update its own, so at an inner partition the update under the
lock has nothing to do with the rounds; a leaf starts the next round after the update.
-/
import CCSim.RoundView
import CCSim.Grv.Frames
import CCSim.Grv.Requests

namespace CCSim

open RoundView

variable {c : Cluster}

/-- The rounds of `grv` at the entry `i`: a partition contributes this entry of its version
vector. -/
def grvRounds (c : Cluster) (i : Replica c) : RoundView c (GrvEvent c) (GrvServerState c) ℚ where
  lstReceived st := st.lstReceived
  minimum st := st.minLstVector i
  token p
    | .startGstComputation => some (.start p)
    | .lstFromLeaf leafLst => some (.up leafLst.leafPartitionId (leafLst.lstVector i))
    | .lstFromLeafRootLocked => some .closed
    | .lstFromLeafRootUnlocked => some (.down c.root)
    | .gstFromRoot _ => some (.down p)
    | .gstFromRootLocked _ => if isLeafPartition p then some (.down p) else none
    | .gstFromRootUnlocked => if isLeafPartition p then some (.down p) else none
    | _ => none
  contributed s st
    | .startGstComputation =>
      if isLeafPartition s.2 ∧ s.2.val ≠ 0 then [st.versionVector i] else []
    | .lstFromLeaf _ =>
      if grvCountLstReceived c st.lstReceived =
        (numChildrenPartitions s.2 + uintSize - 1) % uintSize then [st.versionVector i] else []
    | _ => []
  reads
    | .lstFromLeafRootLocked => true
    | _ => false

variable {i : Replica c} {s : ServerId c} {st : GrvServerState c} {e : GrvEvent c}
  {r : GrvOutcome c}

/-! ## 1. The other handlers -/

/-- Only a value from a child changes the flags and the minimum. -/
theorem grvProcessEvent_flags (h : grvProcessEvent s st e = some r)
    (he : ∀ leafLst, e ≠ .lstFromLeaf leafLst) :
    r.state.lstReceived = st.lstReceived ∧ r.state.minLstVector = st.minLstVector := by
  cases e <;> simp only [grvProcessEvent, grvProcessGetRequest,
    grvProcessForwardedGetRequestLocked, grvProcessGetRequestLocked, grvProcessGetRequestUnlocked,
    grvProcessGetResponse, grvProcessPutRequest, grvProcessPutRequestLocked, grvPutOutcome,
    grvProcessPutRequestUnlocked, grvProcessPutResponse, grvProcessReplicaUpdate,
    grvProcessReplicaUpdateVvLocked, grvProcessReplicaUpdateVvUnlocked, grvReplicaUpdateOutcome,
    grvProcessLstFromLeafRootLocked, grvUpdateGstVector,
    grvProcessLstFromLeafRootUnlocked, grvProcessStartGstComputation, grvProcessGstFromRoot,
    grvProcessGstFromRootLocked, grvProcessGstFromRootUnlocked, grvProcessSliceRequest,
    grvProcessSliceRequestLocked, grvProcessSliceRequestUnlocked, grvProcessSliceResponse,
    grvSendRotxResponse, grvProcessRotxRequest, grvProcessRotxRequestLocked,
    grvProcessRotxRequestUnlocked, grvProcessClockTick, grvProcessClockTickLocked,
    grvProcessClockTickUnlocked, grvProcessHeartbeat, grvProcessHeartbeatLocked,
    Option.map_eq_some_iff] at h <;>
  grind

theorem grvSend_ignored {lpid : Lpid c} (he : (grvRounds c i).Ignores e) :
    (grvRounds c i).Ignores (grvSend lpid e).event := by
  cases lpid <;> exact he

theorem grvReplicaUpdateOutcome_ignored (st : GrvServerState c) (source : Replica c)
    (a : List (GrvReplicaUpdate c) × Option (GrvReplicaUpdate c)) :
    ((grvReplicaUpdateOutcome st source a).placed s).filterMap (grvRounds c i).tokenAt = [] := by
  refine cont_ignored fun e he => ?_
  split at he
  · cases he
  · cases he
    exact fun _ => rfl

theorem grvProcessClockTickUnlocked_ignored {sendTime : Bool}
    (h : grvProcessClockTickUnlocked s st sendTime = some r) :
    (r.placed s).filterMap (grvRounds c i).tokenAt = [] := by
  cases h
  refine placed_ignored (fun o ho => ?_) nothing_ignored
  rcases List.mem_append.mp ho with ho | ho
  · obtain ⟨_, -, rfl⟩ := List.mem_map.mp ho
    exact fun _ => rfl
  · rw [List.mem_singleton.mp ho]
    exact fun _ => rfl

theorem grvProcessSliceRequestUnlocked_ignored {request : GrvSliceRequest c}
    (h : grvProcessSliceRequestUnlocked s st request = some r) :
    (r.placed s).filterMap (grvRounds c i).tokenAt = [] := by
  unfold grvProcessSliceRequestUnlocked at h
  split at h
  · cases h
    exact out_ignored fun _ => rfl
  · cases h

theorem grvProcessRotxRequestUnlocked_ignored {request : GrvRotxRequest c}
    (h : grvProcessRotxRequestUnlocked s st request = some r) :
    (r.placed s).filterMap (grvRounds c i).tokenAt = [] := by
  cases h
  refine placed_ignored (fun o ho => ?_) nothing_ignored
  obtain ⟨p, -, hp⟩ := List.mem_filterMap.mp ho
  split at hp
  · cases hp
  · cases hp
    exact fun _ => rfl

theorem grvProcessGetRequestUnlocked_ignored {request : GrvGetRequest c}
    (h : grvProcessGetRequestUnlocked s st request = some r) :
    (r.placed s).filterMap (grvRounds c i).tokenAt = [] := by
  unfold grvProcessGetRequestUnlocked at h
  split at h
  · cases h
    exact out_ignored (grvSend_ignored fun _ => rfl)
  · cases h

/-- **Events that have nothing to do with the rounds leave such events behind.** -/
theorem grvProcessEvent_ignored (h : grvProcessEvent s st e = some r)
    (he : (grvRounds c i).token s.2 e = none) :
    (r.placed s).filterMap (grvRounds c i).tokenAt = [] := by
  cases e with
  | lstFromLeaf | lstFromLeafRootLocked | lstFromLeafRootUnlocked | startGstComputation
  | gstFromRoot => cases he
  | rotxResponse | clientTick => cases h
  | gstFromRootLocked rootGst =>
    -- the vector has been passed on before
    cases h
    have hnone : (grvRounds c i).tokenAt (.inl s, .gstFromRootUnlocked) = none :=
      congrArg (Option.map _) he
    exact List.filterMap_cons_none hnone
  | gstFromRootUnlocked =>
    cases h
    split
    · rename_i hleaf
      cases (if_pos hleaf).symm.trans he
    · rfl
  | getRequest request =>
    simp only [grvProcessEvent, grvProcessGetRequest] at h
    split at h
    · split at h
      · cases h
      · cases h
        refine placed_ignored (forall_mem_singleton_ignored fun _ => rfl) fun e he => ?_
        split at he <;> cases he
        exact fun _ => rfl
    · split at h
      · cases h
        exact cont_ignored (next_ignored fun _ => rfl)
      · exact grvProcessGetRequestUnlocked_ignored h
  | getRequestUnlocked request => exact grvProcessGetRequestUnlocked_ignored h
  | forwardedGetRequestLocked request | heartbeatLocked heartbeat =>
    cases h
    exact cont_ignored nothing_ignored
  | getRequestLocked request | rotxRequestLocked request | sliceRequestLocked request
  | clockTickLocked | heartbeat heartbeat =>
    cases h
    exact cont_ignored (next_ignored fun _ => rfl)
  | getResponse | putResponse =>
    cases h
    exact out_ignored fun _ => rfl
  | putRequest request =>
    simp only [grvProcessEvent, grvProcessPutRequest] at h
    split at h
    · split at h <;> cases h
      exact out_ignored fun _ => rfl
    · split at h <;> cases h
      · exact out_ignored fun _ => rfl
      · exact cont_ignored (next_ignored fun _ => rfl)
  | putRequestLocked id =>
    simp only [grvProcessEvent, grvProcessPutRequestLocked] at h
    split at h
    · cases h
    · split at h <;> cases h
      exact cont_ignored (next_ignored fun _ => rfl)
  | putRequestUnlocked id =>
    simp only [grvProcessEvent, grvProcessPutRequestUnlocked] at h
    split at h
    · cases h
    · split at h <;> cases h
      refine placed_ignored (fun o ho => ?_) nothing_ignored
      rcases List.mem_cons.mp ho with rfl | ho
      · exact grvSend_ignored fun _ => rfl
      · split at ho
        · cases ho
        · obtain ⟨_, -, rfl⟩ := List.mem_map.mp ho
          exact fun _ => rfl
  | replicaUpdate update =>
    obtain ⟨a, -, rfl⟩ := Option.map_eq_some_iff.mp h
    exact grvReplicaUpdateOutcome_ignored st update.sourceReplica a
  | replicaUpdateVvUnlocked update =>
    obtain ⟨a, -, rfl⟩ := Option.map_eq_some_iff.mp h
    exact grvReplicaUpdateOutcome_ignored st update.sourceReplica a
  | replicaUpdateVvLocked update =>
    simp only [grvProcessEvent, grvProcessReplicaUpdateVvLocked] at h
    split at h <;> cases h
    exact cont_ignored (next_ignored fun _ => rfl)
  | sliceRequest request =>
    simp only [grvProcessEvent, grvProcessSliceRequest] at h
    split at h
    · cases h
      exact out_ignored fun _ => rfl
    · split at h
      · cases h
        exact cont_ignored (next_ignored fun _ => rfl)
      · obtain ⟨r', hr', rfl⟩ := Option.map_eq_some_iff.mp h
        have hnone : (r'.placed s).filterMap (grvRounds c i).tokenAt = [] :=
          grvProcessSliceRequestUnlocked_ignored hr'
        exact hnone
  | sliceRequestUnlocked request => exact grvProcessSliceRequestUnlocked_ignored h
  | sliceResponse slice =>
    simp only [grvProcessEvent, grvProcessSliceResponse] at h
    split at h
    · cases h
    · split at h <;> cases h
      · exact out_ignored fun _ => rfl
      · exact cont_ignored nothing_ignored
  | rotxRequest request =>
    simp only [grvProcessEvent, grvProcessRotxRequest] at h
    split at h
    · cases h
      exact cont_ignored (next_ignored fun _ => rfl)
    · exact grvProcessRotxRequestUnlocked_ignored h
  | rotxRequestUnlocked request => exact grvProcessRotxRequestUnlocked_ignored h
  | clockTick =>
    simp only [grvProcessEvent, grvProcessClockTick] at h
    split at h
    · cases h
      exact cont_ignored (next_ignored fun _ => rfl)
    · exact grvProcessClockTickUnlocked_ignored h
  | clockTickUnlocked sendTime => exact grvProcessClockTickUnlocked_ignored h

/-! ## 2. The handlers of the rounds -/

/-- The clocks of a server do not matter. -/
theorem GstWork.of_clock_grv {t u : ℚ}
    (hw : GstWork (grvRounds c i) s { st with now := t, clock := u } e r) :
    GstWork (grvRounds c i) s st e r := by
  cases hw with
  | other he hf hm hnew hc hr => exact .other he hf hm hnew (by cases e <;> exact hc) hr
  | same t he hf hm hnew hc hr => exact .same t he hf hm hnew (by cases e <;> exact hc) hr
  | start v he hleaf hroot hf hm hnew hc hr =>
    exact .start v he hleaf hroot hf hm hnew (by cases e <;> exact hc) hr
  | note p v he hheard hf hm hnew hc hr =>
    exact .note p v he hheard hf hm hnew (by cases e <;> exact hc) hr
  | complete p v w he hheard hlast hf hm hnew hc hr =>
    exact .complete p v w he hheard hlast hf hm hnew (by cases e <;> exact hc) hr
  | readMinimum he hf hm hnew hc hr =>
    exact .readMinimum he hf hm hnew (by cases e <;> exact hc) hr
  | tell he hleaf hf hm hnew hc hr => exact .tell he hleaf hf hm hnew (by cases e <;> exact hc) hr
  | restart he hleaf hf hm hnew hc hr =>
    exact .restart he hleaf hf hm hnew (by cases e <;> exact hc) hr

/-- An event that has nothing to do with the rounds. -/
theorem GstWork.of_none (h : grvProcessEvent s st e = some r)
    (he : (grvRounds c i).token s.2 e = none) (hc : (grvRounds c i).contributed s st e = [])
    (hr : (grvRounds c i).reads e = false) : GstWork (grvRounds c i) s st e r := by
  obtain ⟨hflags, hmin⟩ := grvProcessEvent_flags h (by rintro leafLst rfl; cases he)
  exact .other he hflags (congrFun hmin i) (grvProcessEvent_ignored h he) hc hr

theorem grvProcessStartGstComputation_rounds (h : grvProcessStartGstComputation s st = some r) :
    GstWork (grvRounds c i) s st .startGstComputation r := by
  unfold grvProcessStartGstComputation at h
  split at h
  · rename_i hleaf
    split at h
    · rename_i hroot
      cases h
      exact .same (.start s.2) rfl rfl rfl rfl (if_neg fun hne => hne.2 hroot) rfl
    · rename_i hroot
      cases h
      exact .start (st.versionVector i) rfl hleaf (ne_root_iff.mpr hroot) rfl rfl rfl
        (if_pos ⟨hleaf, hroot⟩) rfl
  · cases h

theorem setMinVector_apply (v w : TimeVector c) (i : Replica c) :
    setMinVector v w i = min (w i) (v i) := by
  rw [setMinVector, min_def_lt]

theorem grvProcessLstFromLeaf_rounds {leafLst : GrvLstFromLeaf c}
    (h : grvProcessLstFromLeaf s st leafLst = some r) :
    GstWork (grvRounds c i) s st (.lstFromLeaf leafLst) r := by
  unfold grvProcessLstFromLeaf at h
  dsimp only at h
  split at h
  · cases h
  · rename_i hassert
    rw [not_or] at hassert
    have hheard : st.lstReceived (childPartitionIndex c leafLst.leafPartitionId) = false :=
      eq_false_of_ne_true hassert.2
    have hnoted : (if grvCountLstReceived c st.lstReceived = 0 then leafLst.lstVector
        else setMinVector st.minLstVector leafLst.lstVector) i =
          (grvRounds c i).noted st (leafLst.lstVector i) := by
      show _ = if grvCountLstReceived c st.lstReceived = 0 ∨
        leafLst.lstVector i < st.minLstVector i then leafLst.lstVector i else st.minLstVector i
      by_cases hfirst : grvCountLstReceived c st.lstReceived = 0
      · rw [if_pos hfirst, if_pos (.inl hfirst)]
      · rw [if_neg hfirst, setMinVector]
        simp only [hfirst, false_or]
    split at h
    · rename_i hlast
      -- the last child has contributed, and the partition adds its own value
      have hc : (grvRounds c i).contributed s st (.lstFromLeaf leafLst) = [st.versionVector i] :=
        if_pos hlast
      have hmin := (setMinVector_apply (if grvCountLstReceived c st.lstReceived = 0 then
        leafLst.lstVector else setMinVector st.minLstVector leafLst.lstVector) st.versionVector
          i).trans (congrArg _ hnoted)
      split at h
      · rename_i hroot
        cases h
        refine .complete leafLst.leafPartitionId (leafLst.lstVector i) (st.versionVector i) rfl
          hheard hlast rfl hmin ?_ hc rfl
        rw [if_pos (Fin.ext hroot)]
        rfl
      · rename_i hroot
        unfold grvSendLstToParent at h
        split at h
        · cases h
        cases h
        refine .complete leafLst.leafPartitionId (leafLst.lstVector i) (st.versionVector i) rfl
          hheard hlast rfl hmin ?_ hc rfl
        rw [if_neg (ne_root_iff.mpr hroot), ← hmin]
        rfl
    · rename_i hmore
      cases h
      exact .note leafLst.leafPartitionId (leafLst.lstVector i) rfl hheard rfl hnoted rfl
        (if_neg hmore) rfl

/-- The vector is told to every child. -/
theorem grvSendGst_tokens (rootGst : GrvGstFromRoot c) :
    ((grvSendGst s rootGst).map fun o => (o.place s, o.event)).filterMap (grvRounds c i).tokenAt =
      (childrenPartitions s.2).map fun p => ((s.1, p), .down p) := by
  rw [grvSendGst, List.map_map]
  exact RoundView.filterMap_tokenAt (fun _ => rfl) (childrenPartitions s.2)

/-- **What every handler does for the rounds.** -/
theorem grvProcessEvent_rounds (h : grvProcessEvent s st e = some r)
    (hplaced : ∀ x, (grvRounds c i).token s.2 e = some x → Placed (s, x)) :
    GstWork (grvRounds c i) s st e r := by
  cases e with
  | startGstComputation => exact grvProcessStartGstComputation_rounds h
  | lstFromLeaf leafLst => exact grvProcessLstFromLeaf_rounds h
  | lstFromLeafRootLocked =>
    cases h
    refine .readMinimum rfl rfl rfl ?_ rfl rfl
    rw [(hplaced _ rfl).1]
    rfl
  | lstFromLeafRootUnlocked =>
    cases h
    obtain ⟨hroot, hmany⟩ := hplaced _ rfl
    refine .tell (congrArg (some ∘ RoundToken.down) hroot) ?_ rfl rfl ?_ rfl rfl
    · rw [← hroot]
      exact root_not_leaf hmany
    · exact (congrArg _ (List.append_nil _)).trans (grvSendGst_tokens _)
  | gstFromRoot rootGst =>
    cases h
    by_cases hleaf : isLeafPartition s.2 = true
    · have hat : (grvRounds c i).tokenAt (.inl s, .gstFromRootLocked rootGst) =
          some (s, .down s.2) := congrArg (Option.map _) (if_pos hleaf)
      refine .same (.down s.2) rfl rfl rfl ?_ rfl rfl
      rw [Outcome.placed, List.filterMap_append, grvSendGst_tokens, childrenPartitions_leaf hleaf,
        List.map_nil, List.nil_append]
      exact List.filterMap_cons_some hat
    · have hat : (grvRounds c i).tokenAt (.inl s, .gstFromRootLocked rootGst) = none :=
        congrArg (Option.map _) (if_neg hleaf)
      refine .tell rfl (eq_false_of_ne_true hleaf) rfl rfl ?_ rfl rfl
      rw [Outcome.placed, List.filterMap_append, grvSendGst_tokens]
      exact (congrArg _ (List.filterMap_cons_none hat)).trans (List.append_nil _)
  | gstFromRootLocked rootGst =>
    by_cases hleaf : isLeafPartition s.2 = true
    · cases h
      have hat : (grvRounds c i).tokenAt (.inl s, .gstFromRootUnlocked) = some (s, .down s.2) :=
        congrArg (Option.map _) (if_pos hleaf)
      exact .same (.down s.2) (if_pos hleaf) rfl rfl (List.filterMap_cons_some hat) rfl rfl
    · exact .of_none h (if_neg hleaf) rfl rfl
  | gstFromRootUnlocked =>
    by_cases hleaf : isLeafPartition s.2 = true
    · cases h
      refine .restart (if_pos hleaf) hleaf rfl rfl ?_ rfl rfl
      rw [if_pos hleaf]
      rfl
    · exact .of_none h (if_neg hleaf) rfl rfl
  | _ => exact .of_none h rfl rfl rfl

theorem grvServerProcessEvent_rounds {t : ℚ} (h : grvServerProcessEvent s t st e = some r)
    (hplaced : ∀ x, (grvRounds c i).token s.2 e = some x → Placed (s, x)) :
    GstWork (grvRounds c i) s st e r :=
  (grvProcessEvent_rounds (grvServerProcessEvent_some h) hplaced).of_clock_grv

/-- No client takes part. -/
theorem GrvSends.ignored {k : ClientId c} {st' : GrvClientState c}
    {r : GrvClientState c × List (GrvOut c)} (h : GrvSends k st' r) :
    ∀ x ∈ placedOfClient k r.2, (grvRounds c i).tokenAt x = none := by
  intro x hx
  obtain ⟨o, ho, rfl⟩ := List.mem_map.mp hx
  cases h with
  | nothing => cases ho
  | tick =>
    rw [List.mem_singleton.mp ho]
    rfl
  | request _ _ _ hask =>
    rw [List.mem_singleton.mp ho]
    cases hask <;> rfl

/-! ## 3. Every run -/

/-- What a run keeps of the rounds, for every entry of the vectors. -/
theorem grv_rounds_kept {setup : Setup c (GrvEvent c)} {Q : GrvAct c → Prop} {M : GrvMail c}
    {h : List (GrvAct c)} (hr : Mail.Run (grvProgram c) Q (grvWorld setup).config.mail M h)
    (i : Replica c) : (grvRounds c i).Kept M h := by
  have hstart : (grvRounds c i).Kept (grvWorld setup).config.mail [] :=
    RoundView.kept_start (fun _ => rfl) (fun _ => rfl) (fun _ => rfl)
  refine RoundView.kept (grvServerProcessEvent_rounds ·) ?_ hstart hr
  intro k t x st e r h
  obtain ⟨_, -, -, hsends⟩ := grvClientProcessEvent_some h
  exact hsends.ignored

/-- **The law of the rounds holds in every data center and for every entry of the vectors, whatever
the order of the events.** -/
theorem grv_rounds {setup : Setup c (GrvEvent c)} {Q : GrvAct c → Prop} {M : GrvMail c}
    {h : List (GrvAct c)} (hr : Mail.Run (grvProgram c) Q (grvWorld setup).config.mail M h)
    (i r : Replica c) : RoundLaw (grvRounds c i) r M h :=
  (grv_rounds_kept hr i).law r

end CCSim
