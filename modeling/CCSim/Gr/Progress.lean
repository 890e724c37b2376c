/-
# No handler of `gr` fails

What the assertions of the handlers demand is collected in `GrDemands`; a handler whose event meets
it does not fail (`grProcessEvent_isSome`).  In every run in which updates are handled in the order
in which they were made, all events in flight meet it when their turn comes (`gr_demands`): slots
are in use while their ids are under way, keys are where they belong, a PUT that gives its lock back
has been stamped, an update was made some time ago, and the rounds of the stable time are in step.
-/
import CCSim.Asserting
import CCSim.Replicas.Latency
import CCSim.Gr.Discipline
import CCSim.Gr.StateIds
import CCSim.Gr.Rounds
import CCSim.Gr.Coverage

namespace CCSim

open Replication

variable {c : Cluster} {s : ServerId c} {st : GrServerState c} {e : GrEvent c} {r : GrOutcome c}

/-! ## 1. What assertions demand -/

/-- What the assertions of the handler of an event demand. -/
def GrDemands (s : ServerId c) (st : GrServerState c) : GrEvent c → Prop
  | .getRequest request => lpidForKey s request.key ≠ s → request.proxy = none
  | .getRequestLocked id => ∃ getState, ptrArrayGet st.getStates id = some getState
  | .getRequestUnlocked id => ∃ getState, ptrArrayGet st.getStates id = some getState ∧
      ownsKey s getState.key = true
  | .putRequest request => lpidForKey s request.key ≠ s → request.proxy = none
  | .putRequestLocked id => ∃ putState, ptrArrayGet st.putStates id = some putState ∧
      ownsKey s putState.key = true
  | .putRequestUnlocked id => ∃ putState, ptrArrayGet st.putStates id = some putState ∧
      putState.stamp.isSome = true
  | .replicaUpdate update => (replicaUpdateEnqueue (grUpdateRules s) st.store
      (st.replicaUpdateQueues update.sourceReplica) update).isSome
  | .replicaUpdateLocked update => ownsKey s update.key = true ∧
      0 < st.now - update.updateTimeNoSkew
  | .replicaUpdateUnlocked update => (replicaUpdateDequeue (grUpdateRules s) st.store
      (st.replicaUpdateQueues update.sourceReplica) update).isSome
  | .lstFromLeaf leafLst => leafLst.leafPartitionId.val ≠ 0 ∧
      st.lstReceived (childPartitionIndex c leafLst.leafPartitionId) = false
  | .startGstComputation => isLeafPartition s.2 = true
  | .getSnapshotRequestLocked id => ∃ snapshot, ptrArrayGet st.snapshotStates id = some snapshot
  | .getSnapshotRequestUnlocked id => ∃ snapshot, ptrArrayGet st.snapshotStates id = some snapshot
  | .sliceRequest request => ownsKey s request.key = true
  | .sliceRequestUnlocked request => ownsKey s request.key = true
  | .sliceResponse slice => ∃ snapshot rotx,
      ptrArrayGet st.snapshotStates slice.snapshotId = some snapshot ∧ snapshot.client = .server s ∧
        ptrArrayGet st.rotxStates snapshot.requestId = some rotx
  | .sliceResponseUnlocked slice => ∃ snapshot rotx,
      ptrArrayGet st.snapshotStates slice.snapshotId = some snapshot ∧ snapshot.client = .server s ∧
        ptrArrayGet st.rotxStates snapshot.requestId = some rotx
  | .getSnapshotResponse _ => False
  | .rotxResponse _ => False
  | .clientTick => False
  | _ => True

theorem grProcessGetRequestUnlocked_isSome {id : ℕ} {getState : GrGetState c}
    (hget : ptrArrayGet st.getStates id = some getState) (hkey : ownsKey s getState.key = true) :
    (grProcessGetRequestUnlocked s st id).isSome := by
  simp only [grProcessGetRequestUnlocked, hget, if_pos hkey, Option.isSome_some]

theorem grProcessGetRequest_isSome {request : GrGetRequest c}
    (h : lpidForKey s request.key ≠ s → request.proxy = none) :
    (grProcessGetRequest s st request).isSome := by
  unfold grProcessGetRequest
  dsimp only
  split
  · rename_i hkey
    rw [if_neg (not_not.mpr (h hkey))]
    rfl
  · rename_i hkey
    split
    · rfl
    · have hslot : ptrArrayGet (ptrArrayPut request.state st.getStates)
          (ptrArrayFree st.getStates) = some request.state := by
        rw [ptrArrayPut_get, if_pos rfl]
      have howns : ownsKey s request.key = true := decide_eq_true (not_not.mp hkey)
      exact grProcessGetRequestUnlocked_isSome hslot howns

theorem grProcessPutRequest_isSome {request : GrPutRequest c}
    (h : lpidForKey s request.key ≠ s → request.proxy = none) :
    (grProcessPutRequest s st request).isSome := by
  unfold grProcessPutRequest
  dsimp only
  split
  · rename_i hkey
    rw [if_neg (not_not.mpr (h hkey))]
    rfl
  · split <;> rfl

theorem grProcessLstFromLeaf_isSome {leafLst : GrLstFromLeaf c}
    (hroot : leafLst.leafPartitionId.val ≠ 0)
    (hflag : st.lstReceived (childPartitionIndex c leafLst.leafPartitionId) = false) :
    (grProcessLstFromLeaf s st leafLst).isSome := by
  simp only [grProcessLstFromLeaf, grSendLstToParent, hroot, hflag, Bool.false_eq_true, or_self,
    if_false]
  split
  · split <;> rfl
  · rfl

theorem grProcessSliceResponseUnlocked_isSome {slice : GrSliceResponse c}
    {snapshot : GrSnapshotState c} {rotx : GrRotxState c}
    (hget : ptrArrayGet st.snapshotStates slice.snapshotId = some snapshot)
    (hclient : snapshot.client = .server s)
    (hrotx : ptrArrayGet st.rotxStates snapshot.requestId = some rotx) :
    (grProcessSliceResponseUnlocked s st slice).isSome := by
  have hself : (grReceiveSlice snapshot slice).client = .server s := hclient
  simp only [grProcessSliceResponseUnlocked, hget, grSendSnapshotResponse]
  split
  · simp only [grProcessRotxSnapshotResponse, grSnapshotAnswer, grReceiveSlice, hrotx,
      Option.isSome_some]
  · rfl

/-- **A handler does not fail** if the event meets what its assertions demand. -/
theorem grProcessEvent_isSome (h : GrDemands s st e) : (grProcessEvent s st e).isSome := by
  cases e with
  | getSnapshotResponse | rotxResponse | clientTick => exact h.elim
  | getRequest => exact grProcessGetRequest_isSome h
  | getRequestLocked id =>
    obtain ⟨getState, hget⟩ := h
    simp only [grProcessEvent, grProcessGetRequestLocked, hget, Option.isSome_some]
  | getRequestUnlocked id =>
    obtain ⟨getState, hget, hkey⟩ := h
    exact grProcessGetRequestUnlocked_isSome hget hkey
  | putRequest => exact grProcessPutRequest_isSome h
  | putRequestLocked id =>
    obtain ⟨putState, hget, hkey⟩ := h
    simp only [grProcessEvent, grProcessPutRequestLocked, hget, if_pos hkey, Option.isSome_some]
  | putRequestUnlocked id =>
    obtain ⟨putState, hget, hstamp⟩ := h
    obtain ⟨stamp, hstamp⟩ := Option.isSome_iff_exists.mp hstamp
    simp only [grProcessEvent, grProcessPutRequestUnlocked, hget, hstamp, Option.isSome_some]
  | replicaUpdate | replicaUpdateUnlocked => exact Option.isSome_map.trans h
  | replicaUpdateLocked =>
    have h' : _ ∧ _ := h
    simp only [grProcessEvent, grProcessReplicaUpdateLocked, if_pos h', Option.isSome_some]
  | lstFromLeaf => exact grProcessLstFromLeaf_isSome h.1 h.2
  | startGstComputation =>
    have hleaf : isLeafPartition s.2 = true := h
    simp only [grProcessEvent, grProcessStartGstComputation, hleaf, if_true]
    split <;> rfl
  | getSnapshotRequestLocked id =>
    obtain ⟨snapshot, hget⟩ := h
    simp only [grProcessEvent, grProcessGetSnapshotRequestLocked, hget, Option.isSome_some]
  | getSnapshotRequestUnlocked id =>
    obtain ⟨snapshot, hget⟩ := h
    simp only [grProcessEvent, grProcessGetSnapshotRequestUnlocked, hget, Option.isSome_some]
  | sliceRequest request =>
    have hkey : ownsKey s request.key = true := h
    simp only [grProcessEvent, grProcessSliceRequest, grProcessSliceRequestUnlocked, hkey, if_true]
    split <;> rfl
  | sliceRequestUnlocked request =>
    have hkey : ownsKey s request.key = true := h
    simp only [grProcessEvent, grProcessSliceRequestUnlocked, hkey, if_true, Option.isSome_some]
  | sliceResponse slice =>
    obtain ⟨snapshot, rotx, hget, hclient, hrotx⟩ := h
    simp only [grProcessEvent, grProcessSliceResponse]
    split
    · rfl
    · exact grProcessSliceResponseUnlocked_isSome hget hclient hrotx
  | sliceResponseUnlocked slice =>
    obtain ⟨snapshot, rotx, hget, hclient, hrotx⟩ := h
    exact grProcessSliceResponseUnlocked_isSome hget hclient hrotx
  | clockTick =>
    simp only [grProcessEvent, grProcessClockTick]
    split <;> rfl
  | clockTickLocked =>
    simp only [grProcessEvent, grProcessClockTickLocked]
    split <;> rfl
  | gstFromRootUnlocked =>
    simp only [grProcessEvent, grProcessGstFromRootUnlocked]
    split <;> rfl
  | _ => rfl

/-! ## 2. Times -/

/-- Every handler notes when it ran. -/
theorem grProcessEvent_now (h : grProcessEvent s st e = some r) : r.state.now = st.now := by
  cases e <;> simp only [grProcessEvent, grProcessGetRequest, grProcessForwardGetRequestLocked,
    grProcessGetRequestLocked, grProcessGetRequestUnlocked, grProcessGetResponse,
    grProcessPutRequest, grProcessPutRequestLocked, grPutOutcome, grProcessPutRequestUnlocked,
    grProcessPutResponse, grProcessReplicaUpdate, grProcessReplicaUpdateLocked,
    grProcessReplicaUpdateUnlocked, grReplicaUpdateOutcome, grProcessLstFromLeaf,
    grSendLstToParent, grProcessLstFromLeafRootLocked, grProcessLstFromLeafRootUnlocked,
    grProcessStartGstComputation, grProcessGstFromRoot, grProcessGstFromRootLocked,
    grProcessGstFromRootUnlocked, grProcessGetSnapshotRequest, grProcessGetSnapshotRequestLocked,
    grProcessGetSnapshotRequestUnlocked, grProcessSliceRequest, grProcessSliceRequestLocked,
    grProcessSliceRequestUnlocked, grProcessSliceResponse, grProcessSliceResponseLocked,
    grProcessSliceResponseUnlocked, grSendSnapshotResponse, grProcessRotxSnapshotResponse,
    grProcessRotxRequest, grProcessClockTick, grProcessClockTickLocked,
    grProcessClockTickUnlocked, grProcessHeartbeat, grProcessHeartbeatLocked, grUpdateGst,
    grRotxOnGstUpdated, Option.map_eq_some_iff] at h <;>
  grind

theorem grUpdateGst_forward (gst : ℚ) : ∀ o ∈ (grUpdateGst st gst).2, o.Forward := by
  intro o ho
  obtain ⟨rotx, -, rfl⟩ := grUpdateGst_outs ho
  exact le_rfl

theorem grSend_forward (lpid : Lpid c) (e : GrEvent c) : (grSend lpid e).Forward := by
  cases lpid <;> trivial

theorem grProcessGetRequestUnlocked_forward {id : ℕ}
    (h : grProcessGetRequestUnlocked s st id = some r) : ∀ o ∈ r.outs, o.Forward := by
  unfold grProcessGetRequestUnlocked at h
  split at h
  · cases h
  · split at h <;> cases h
    exact List.forall_mem_singleton.mpr (grSend_forward _ _)

theorem grProcessClockTickUnlocked_forward {sendTime : Bool} (hclock : 0 ≤ c.clockInterval)
    (h : grProcessClockTickUnlocked s st sendTime = some r) : ∀ o ∈ r.outs, o.Forward := by
  cases h
  intro o ho
  rcases List.mem_append.mp ho with ho | ho
  · obtain ⟨s', -, rfl⟩ := List.mem_map.mp ho
    trivial
  · rw [List.mem_singleton.mp ho]
    exact hclock

theorem grProcessSliceRequestUnlocked_forward {request : GrSliceRequest c}
    (h : grProcessSliceRequestUnlocked s st request = some r) : ∀ o ∈ r.outs, o.Forward := by
  unfold grProcessSliceRequestUnlocked at h
  split at h <;> cases h
  exact List.forall_mem_singleton.mpr trivial

theorem grProcessSliceResponseUnlocked_forward {slice : GrSliceResponse c}
    (h : grProcessSliceResponseUnlocked s st slice = some r) : ∀ o ∈ r.outs, o.Forward := by
  simp only [grProcessSliceResponseUnlocked, grSendSnapshotResponse,
    grProcessRotxSnapshotResponse] at h
  split at h
  · cases h
  · split at h
    · split at h
      · split at h <;> cases h
        exact List.forall_mem_singleton.mpr trivial
      · cases h
        exact List.forall_mem_singleton.mpr (grSend_forward _ _)
    · cases h
      exact List.forall_mem_nil _

theorem grSendGst_forward (rootGst : GrGstFromRoot) : ∀ o ∈ grSendGst s rootGst, o.Forward := by
  intro o ho
  obtain ⟨p, -, rfl⟩ := List.mem_map.mp ho
  trivial

/-- **What a server schedules for itself is not for the past**: a PUT comes back when the clock has
reached its dependency time, and intervals are not negative. -/
theorem grProcessEvent_forward (hgst : 0 ≤ c.gstInterval) (hclock : 0 ≤ c.clockInterval)
    (h : grProcessEvent s st e = some r) : ∀ o ∈ r.outs, o.Forward := by
  cases e with
  | getSnapshotResponse | rotxResponse | clientTick => cases h
  | getRequest request =>
    simp only [grProcessEvent, grProcessGetRequest] at h
    split at h
    · split at h <;> cases h
      exact List.forall_mem_singleton.mpr trivial
    · split at h
      · cases h
        exact List.forall_mem_nil _
      · exact grProcessGetRequestUnlocked_forward h
  | getRequestUnlocked => exact grProcessGetRequestUnlocked_forward h
  | forwardGetRequestLocked | lstFromLeafRootLocked | gstFromRootLocked | sliceRequestLocked
  | sliceResponseLocked =>
    cases h
    exact grUpdateGst_forward _
  | getRequestLocked =>
    simp only [grProcessEvent, grProcessGetRequestLocked] at h
    split at h <;> cases h
    exact grUpdateGst_forward _
  | getSnapshotRequestLocked =>
    simp only [grProcessEvent, grProcessGetSnapshotRequestLocked] at h
    split at h <;> cases h
    exact grUpdateGst_forward _
  | getResponse | putResponse =>
    cases h
    exact List.forall_mem_singleton.mpr trivial
  | putRequest request =>
    simp only [grProcessEvent, grProcessPutRequest] at h
    split at h
    · split at h <;> cases h
      exact List.forall_mem_singleton.mpr trivial
    · split at h
      · rename_i hlt
        cases h
        exact List.forall_mem_singleton.mpr (sub_nonneg.mpr hlt.le)
      · cases h
        exact List.forall_mem_nil _
  | putRequestLocked =>
    obtain ⟨putState, -, -, rfl⟩ := grProcessPutRequestLocked_some h
    exact List.forall_mem_nil _
  | putRequestUnlocked =>
    obtain ⟨putState, stamp, -, -, rfl⟩ := grProcessPutRequestUnlocked_some h
    refine List.forall_mem_cons.mpr ⟨grSend_forward _ _, fun o ho => ?_⟩
    split at ho
    · cases ho
    · obtain ⟨s', -, rfl⟩ := List.mem_map.mp ho
      trivial
  | replicaUpdate | replicaUpdateUnlocked =>
    obtain ⟨a, -, rfl⟩ := Option.map_eq_some_iff.mp h
    exact List.forall_mem_nil _
  | replicaUpdateLocked =>
    simp only [grProcessEvent, grProcessReplicaUpdateLocked] at h
    split at h <;> cases h
    exact List.forall_mem_nil _
  | lstFromLeaf =>
    simp only [grProcessEvent, grProcessLstFromLeaf, grSendLstToParent] at h
    split at h
    · cases h
    · split at h
      · split at h <;> cases h
        · exact List.forall_mem_nil _
        · exact List.forall_mem_singleton.mpr trivial
      · cases h
        exact List.forall_mem_nil _
  | lstFromLeafRootUnlocked =>
    cases h
    exact grSendGst_forward _
  | startGstComputation =>
    simp only [grProcessEvent, grProcessStartGstComputation] at h
    split at h
    · split at h <;> cases h
      · exact List.forall_mem_append.mpr ⟨grUpdateGst_forward _, List.forall_mem_singleton.mpr hgst⟩
      · exact List.forall_mem_singleton.mpr trivial
    · cases h
  | gstFromRoot | getSnapshotRequest | heartbeat | heartbeatLocked =>
    cases h
    exact List.forall_mem_nil _
  | gstFromRootUnlocked =>
    simp only [grProcessEvent, grProcessGstFromRootUnlocked] at h
    split at h <;> cases h
    · exact List.forall_mem_singleton.mpr hgst
    · exact grSendGst_forward _
  | getSnapshotRequestUnlocked =>
    simp only [grProcessEvent, grProcessGetSnapshotRequestUnlocked] at h
    split at h <;> cases h
    intro o ho
    obtain ⟨i, hi, rfl⟩ := List.mem_mapIdx.mp ho
    trivial
  | sliceRequest =>
    simp only [grProcessEvent, grProcessSliceRequest] at h
    split at h
    · cases h
      exact List.forall_mem_nil _
    · exact grProcessSliceRequestUnlocked_forward h
  | sliceRequestUnlocked => exact grProcessSliceRequestUnlocked_forward h
  | sliceResponse =>
    simp only [grProcessEvent, grProcessSliceResponse] at h
    split at h
    · cases h
      exact List.forall_mem_nil _
    · exact grProcessSliceResponseUnlocked_forward h
  | sliceResponseUnlocked => exact grProcessSliceResponseUnlocked_forward h
  | rotxRequest =>
    cases h
    intro o ho
    dsimp only at ho
    split at ho
    · cases ho
    · rw [List.mem_singleton.mp ho]
      exact le_rfl
  | clockTick =>
    simp only [grProcessEvent, grProcessClockTick] at h
    split at h
    · cases h
      exact List.forall_mem_nil _
    · exact grProcessClockTickUnlocked_forward hclock h
  | clockTickLocked =>
    simp only [grProcessEvent, grProcessClockTickLocked] at h
    split at h <;> cases h <;> exact List.forall_mem_nil _
  | clockTickUnlocked => exact grProcessClockTickUnlocked_forward hclock h

theorem grClientProcessEvent_forward {k : ClientId c} {t : ℚ} {decision : Decision}
    {st : GrClientState c} {y : GrClientState c × List (GrOut c)}
    (h : grClientProcessEvent k t decision st e = some y) : ∀ o ∈ y.2, o.Forward := by
  unfold grClientProcessEvent at h
  split at h
  · cases h
  · cases decision with
    | nothing =>
      cases h
      exact List.forall_mem_nil _
    | tick delay =>
      simp only [grClientDecide] at h
      split at h
      · rename_i hdelay
        cases h
        exact List.forall_mem_singleton.mpr hdelay
      · cases h
    | _ =>
      obtain ⟨st', -, rfl⟩ := Option.map_eq_some_iff.mp h
      exact List.forall_mem_singleton.mpr trivial

/-- **Nothing is scheduled in the past.** -/
theorem gr_forward (setup : Setup c (GrEvent c)) : (grProgram c).Forward where
  serve h := grProcessEvent_forward (setup.start_pos.le.trans setup.start_le_gstInterval)
    (setup.start_pos.le.trans setup.start_le_clockInterval) (grServerProcessEvent_some h)
  client h := grClientProcessEvent_forward h

theorem grPutOutcome_making {id : ℕ} {putState : GrPutState c} {u : GrReplicaUpdate c}
    {store : Option (Store (Replica c) Unit)} (hget : ptrArrayGet st.putStates id = some putState)
    (hu : grMaking s (grPutOutcome s st id putState store).state id = some u) :
    u.updateTimeNoSkew = st.now := by
  rw [grMaking_set hget _ _ rfl, Function.update_self] at hu
  simp only [Option.bind_some] at hu
  split at hu <;> cases hu
  rfl

/-- Work on a queue asks for the lock for the update that it has come to. -/
theorem grReplicaUpdateOutcome_install {source : Replica c}
    {q : List (GrReplicaUpdate c) × Option (GrReplicaUpdate c)} {noTime : Bool}
    {y : (ServerId c ⊕ ClientId c) × GrEvent c} {w : GrReplicaUpdate c}
    (hy : y ∈ Outcome.placed s { grReplicaUpdateOutcome st source q with noTime := noTime })
    (hw : grRole y.2 = .install w) : q.2 = some w := by
  obtain ⟨q, n⟩ := q
  rcases Outcome.mem_placed.mp hy with ⟨o, ho, -⟩ | ⟨e, he, rfl⟩
  · cases ho
  · obtain rfl := grRole_install.mp hw
    cases n with
    | none => cases he
    | some u =>
      cases he
      rfl

/-- **A PUT notes the time, and updates are passed on as they are.** -/
theorem grReplicating_notesTime (c : Cluster) : (grReplicating c).NotesTime where
  put {s t st e r id u} h hrole hu := by
    obtain rfl := grRole_put.mp hrole
    obtain ⟨putState, hget, -, rfl⟩ := grProcessPutRequestLocked_some (grServerProcessEvent_some h)
    have htime := grPutOutcome_making hget hu
    exact htime
  made {s t st e r id y w} h hrole hy hw := by
    obtain rfl := grRole_made.mp hrole
    obtain ⟨putState, stamp, hget, hstamp, rfl⟩ :=
      grProcessPutRequestUnlocked_some (grServerProcessEvent_some h)
    have hget : ptrArrayGet st.putStates id = some putState := hget
    rcases Outcome.mem_placed.mp hy with ⟨o, ho, rfl⟩ | ⟨e, he, -⟩
    · have hevent := grRole_update.mp hw
      rcases List.mem_cons.mp ho with rfl | ho
      · rw [grSend_event] at hevent
        cases hevent
      · split at ho
        · cases ho
        · rename_i hdiscarded
          obtain ⟨s', -, rfl⟩ := List.mem_map.mp ho
          cases hevent
          show grMaking s st id = _
          simp [grMaking, hget, hstamp, hdiscarded]
    · cases he
  update {s t st e r u y w} h hrole hy hw := by
    obtain rfl := grRole_update.mp hrole
    obtain ⟨q, hq, rfl⟩ := Option.map_eq_some_iff.mp (grServerProcessEvent_some h)
    exact replicaUpdateEnqueue_next (hq.trans (congrArg _
      (Prod.ext rfl (grReplicaUpdateOutcome_install hy hw))))
  install {s t st e r u y w} h hrole hy hw := by
    obtain rfl := grRole_install.mp hrole
    have hr := grServerProcessEvent_some h
    simp only [grProcessEvent, grProcessReplicaUpdateLocked] at hr
    split at hr <;> cases hr
    rcases Outcome.mem_placed.mp hy with ⟨o, ho, -⟩ | ⟨e, he, rfl⟩
    · cases ho
    · cases he
      cases hw
      rfl
  leave {s t st e r u y w} h hrole hy hw := by
    obtain rfl := grRole_leave.mp hrole
    obtain ⟨q, hq, rfl⟩ := Option.map_eq_some_iff.mp (grServerProcessEvent_some h)
    exact replicaUpdateDequeue_next (hq.trans (congrArg _
      (Prod.ext rfl (grReplicaUpdateOutcome_install hy hw))))

/-! ## 3. What servers are not sent -/

/-- What is for clients only: the answer to a transaction, and their ticks. -/
def GrEvent.ForClients : GrEvent c → Prop
  | .rotxResponse _ => True
  | .clientTick => True
  | _ => False

theorem GrEvent.Other.not_forClients (h : e.Other) : ¬e.ForClients := by
  cases e <;> first | exact h.elim | exact fun h => h

/-- Servers keep it to themselves. -/
theorem GrWork.forClients (hw : GrWork s st e r) (hst : GrFormed s st) :
    ∀ x ∈ r.placed s, x.2.ForClients → ∃ k, x.1 = .inr k := by
  have hupdate : ∀ (gst : ℚ), ∀ o ∈ (grUpdateGst st gst).2, o.event.ForClients →
      ∃ k, o.place s = .inr k := by
    intro gst o ho hfor
    obtain ⟨id, rotx, -, rfl⟩ := grUpdateGst_out ho
    exact hfor.elim
  cases hw with
  | other _ _ _ _ _ hnew => exact fun x hx hfor => absurd hfor (hnew x hx).not_forClients
  | wake _ gst others _ hplaced hothers =>
    rw [hplaced]
    intro x hx hfor
    rcases List.mem_append.mp hx with hx | hx
    · obtain ⟨o, ho, rfl⟩ := List.mem_map.mp hx
      exact hupdate gst o ho hfor
    · exact absurd hfor (hothers x hx).not_forClients
  | getForward _ hcont =>
    exact Outcome.forall_placed (List.forall_mem_singleton.mpr fun hfor => hfor.elim)
      fun e he hfor => absurd hfor (hcont e he).not_forClients
  | getLocked | snapshotLocked | sliceLocked | receiveLocked =>
    refine Outcome.forall_placed (hupdate _) ?_
    rintro _ ⟨⟩ hfor
    exact hfor.elim
  | getServe | getUnlocked =>
    refine Outcome.forall_placed (List.forall_mem_singleton.mpr ?_) (by rintro _ ⟨⟩)
    rw [grSend_event]
    exact fun hfor => hfor.elim
  | putUnlocked =>
    refine Outcome.forall_placed (List.forall_mem_cons.mpr ⟨?_, fun o ho => ?_⟩) (by rintro _ ⟨⟩)
    · rw [grSend_event]
      exact fun hfor => hfor.elim
    · split at ho
      · cases ho
      · obtain ⟨s', -, rfl⟩ := List.mem_map.mp ho
        exact fun hfor => hfor.elim
  | rotxRequest =>
    refine Outcome.forall_placed (fun o ho => ?_) (by rintro _ ⟨⟩)
    dsimp only at ho
    split at ho
    · cases ho
    · rw [List.mem_singleton.mp ho]
      exact fun hfor => hfor.elim
  | snapshotUnlocked =>
    refine Outcome.forall_placed (fun o ho => ?_) (by rintro _ ⟨⟩)
    obtain ⟨i, hi, rfl⟩ := List.mem_mapIdx.mp ho
    exact fun hfor => hfor.elim
  | receiveLast =>
    exact Outcome.forall_placed (List.forall_mem_singleton.mpr fun _ => ⟨_, rfl⟩) (by rintro _ ⟨⟩)
  | abroad _ hget hclient => exact absurd (hst.snapshot _ _ hget) hclient
  | getOpen | putOpen | putLocked | snapshotRequest | sliceRequest | sliceResponse =>
    refine Outcome.forall_placed (List.forall_mem_nil _) ?_
    rintro _ ⟨⟩ hfor
    exact hfor.elim
  | receive => exact Outcome.forall_placed (List.forall_mem_nil _) (by rintro _ ⟨⟩)
  | getResponse | putResponse =>
    exact Outcome.forall_placed (List.forall_mem_singleton.mpr fun _ => ⟨_, rfl⟩) (by rintro _ ⟨⟩)
  | putForward | putDefer | sliceServe =>
    exact Outcome.forall_placed (List.forall_mem_singleton.mpr fun hfor => hfor.elim)
      (by rintro _ ⟨⟩)

section Runs

variable {setup : Setup c (GrEvent c)} {Q : GrAct c → Prop} {M : GrMail c} {h : List (GrAct c)}

theorem gr_forClients (hr : Mail.Run (grProgram c) Q (grWorld setup).config.mail M h) :
    ∀ x ∈ M.events, x.2.ForClients → ∃ k, x.1 = .inr k := by
  have hflow := hr.flow_all (fun _ _ _ => True) (fun _ _ _ => True)
    (fun _ x => x.2.ForClients → ∃ k, x.1 = .inr k) id id id ?_ ?_
    (fun _ => trivial) (fun _ => trivial) ?_
  · exact hflow.2.2
  · intro M h s t e r hrun hmem hserve _ _
    have hformed : GrFormed s { M.server s with now := t, clock := c.clock s t } :=
      ((gr_formed hrun).1 s).of_eq rfl rfl rfl rfl
    exact ⟨trivial, (grProcessEvent_work (grServerProcessEvent_some hserve)).forClients hformed⟩
  · intro M h k t decision e r hrun hasked _ _
    obtain ⟨st', -, -, hasks⟩ := grClientProcessEvent_asks hasked
    refine ⟨trivial, fun x hx hfor => ?_⟩
    cases hasks x hx <;> first | exact ⟨_, rfl⟩ | exact hfor.elim
  · intro x hx hfor
    rcases Setup.mem_mail hx with ⟨s, rfl, -⟩ | ⟨s, rfl⟩ | ⟨k, rfl⟩
    · exact hfor.elim
    · exact hfor.elim
    · exact ⟨k, rfl⟩

/-- A slot is in use while its id is under way. -/
theorem gr_slot_live (hr : Mail.Run (grProgram c) Q (grWorld setup).config.mail M h)
    {x : (ServerId c ⊕ ClientId c) × GrEvent c} (hx : x ∈ M.events) (slot : Slot c)
    (hslot : grSlot x = some slot) :
    ∃ y, (grStateView c).objectAt M slot = some y := by
  by_contra hfree
  have hnone : (grStateView c).objectAt M slot = none :=
    Option.eq_none_iff_forall_ne_some.mpr fun y hy => hfree ⟨y, hy⟩
  exact (gr_free_unreferred hr hnone).events x hx hslot

/-- So is the slot of a transaction while its snapshot is being read. -/
theorem gr_rotx_live (hr : Mail.Run (grProgram c) Q (grWorld setup).config.mail M h) {id : ℕ}
    {snapshot : GrSnapshotState c}
    (hget : ptrArrayGet (M.server s).snapshotStates id = some snapshot) :
    ∃ rotx, ptrArrayGet (M.server s).rotxStates snapshot.requestId = some rotx := by
  by_contra hfree
  have hnone : ptrArrayGet (M.server s).rotxStates snapshot.requestId = none :=
    Option.eq_none_iff_forall_ne_some.mpr fun rotx hrotx => hfree ⟨rotx, hrotx⟩
  have hunreferred : (grStateView c).Unreferred M ⟨s, .rotx, snapshot.requestId⟩ :=
    gr_free_unreferred hr (Option.map_eq_none_iff.mpr hnone)
  exact hunreferred.objects ⟨id, snapshot, hget, rfl⟩

theorem gr_starts_at_leaves (hr : Mail.Run (grProgram c) Q (grWorld setup).config.mail M h) :
    ∀ x ∈ M.events, (grRounds c).StartsAtLeaf x := by
  refine RoundView.starts_at_leaves (fun hrun hmem hserve => ?_) (fun hasked y hy => ?_) ?_ hr
  · exact grServerProcessEvent_rounds hserve fun y hy =>
      (gr_rounds_kept hrun).placed _ hmem _ (by rw [RoundView.tokenAt, hy]; rfl)
  · obtain ⟨_, -, -, hasks⟩ := grClientProcessEvent_asks hasked
    exact RoundView.tokenAt_ignored (hasks y hy).ignored
  · intro x hx s p hstart
    rcases Setup.mem_mail hx with ⟨s', rfl, hleaf⟩ | ⟨s', rfl⟩ | ⟨k, rfl⟩ <;> cases hstart
    exact hleaf

end Runs

/-! ## 4. Every run -/

section Progress

variable {setup : Setup c (GrEvent c)} {C : GrCond c} {h : List (GrAct c)}
  {A : Config (ServerId c) (ClientId c) (GrEvent c) (GrServerState c) (GrClientState c)}

/-- A PUT that is about to give its lock back has been stamped. -/
def GrPutStamped (st : GrServerState c) : GrEvent c → Prop
  | .putRequestUnlocked id => ∃ putState, ptrArrayGet st.putStates id = some putState ∧
      putState.stamp.isSome = true
  | _ => True

theorem GrPutStamped.of_eq {st' : GrServerState c} (h : GrPutStamped st e)
    (hput : st'.putStates = st.putStates) : GrPutStamped st' e := by
  cases e with
  | putRequestUnlocked =>
    rw [GrPutStamped, hput]
    exact h
  | _ => trivial

/-- Other handlers leave the stamps alone. -/
theorem GrWork.stamps {e' : GrEvent c} (hw : GrWork s st e r) (hst : GrFormed s st)
    (hlocked : grKind e ≠ .locked .mutex grLock) (hunlocked : grKind e ≠ .unlocked .mutex grLock)
    (he' : GrPutStamped st e') : GrPutStamped r.state e' := by
  cases hw with
  | other _ _ hput => exact he'.of_eq hput
  | wake _ gst _ hstate =>
    rw [hstate]
    exact he'.of_eq (grUpdateGst_putStates st gst)
  | putOpen =>
    cases e' with
    | putRequestUnlocked id =>
      obtain ⟨putState, hget, hstamp⟩ := he'
      refine ⟨putState, ?_, hstamp⟩
      dsimp only
      rw [ptrArrayPut_get, if_neg, hget]
      rintro rfl
      rw [ptrArrayFree_get] at hget
      cases hget
    | _ => trivial
  | putLocked | snapshotLocked | sliceLocked | receiveLocked | getLocked => exact absurd rfl hlocked
  | putUnlocked => exact absurd rfl hunlocked
  | abroad _ hget hclient => exact absurd (hst.snapshot _ _ hget) hclient
  | _ => exact he'.of_eq rfl

/-- It is the handler with the lock that stamps a PUT. -/
theorem GrWork.stamped {id : ℕ} (hw : GrWork s st e r) (hst : GrFormed s st)
    (hcont : r.cont = .unlock .mutex grLock (some (.putRequestUnlocked id))) :
    GrPutStamped r.state (.putRequestUnlocked id) := by
  have hplaced : (.inl s, .putRequestUnlocked id) ∈ r.placed s :=
    Outcome.mem_placed.mpr (.inr ⟨_, by rw [hcont]; rfl, rfl⟩)
  cases hw with
  | other _ _ _ _ _ hnew => exact (hnew _ hplaced).elim
  | wake _ gst others _ hplaced' hothers =>
    rw [hplaced'] at hplaced
    rcases List.mem_append.mp hplaced with hmem | hmem
    · obtain ⟨o, ho, ho'⟩ := List.mem_map.mp hmem
      obtain ⟨_, rotx, -, rfl⟩ := grUpdateGst_out ho
      cases ho'
    · exact (hothers _ hmem).elim
  | getForward _ hother =>
    dsimp only at hcont
    subst hcont
    exact (hother _ rfl).elim
  | abroad _ hget hclient => exact absurd (hst.snapshot _ _ hget) hclient
  | putLocked hput =>
    cases hcont
    exact ⟨_, (ptrArraySet_get hput _ _).trans (if_pos rfl), rfl⟩
  | _ => cases hcont

theorem gr_put_stamped (hr : Run (grProgram c) C (grWorld setup).config A h) :
    ∀ s e u, .release s .mutex grLock (some e) u ∈ A.pool → GrPutStamped (A.server s) e := by
  have hformed : ∀ {A h} {s : ServerId c} {t}, Run (grProgram c) C (grWorld setup).config A h →
      GrFormed s { A.server s with now := t, clock := c.clock s t } := fun hrun =>
    ((gr_formed (hrun.mail (Q := fun _ => True) fun _ _ => trivial)).1 _).of_eq rfl rfl rfl rfl
  refine Run.released (fun _ => GrPutStamped) (grReplicating c).disciplined
    (grWorld_fresh setup).exclusive (fun s e u => (grWorld_fresh setup).unlocked s e u)
    (fun {A h s t e r e'} hrun hserve hcont => ?_)
    (fun hrun hserve hlocked hunlocked he' =>
      (grProcessEvent_work (grServerProcessEvent_some hserve)).stamps (hformed hrun) hlocked
        hunlocked (he'.of_eq rfl)) hr
  cases e' with
  | putRequestUnlocked id =>
    exact (grProcessEvent_work (grServerProcessEvent_some hserve)).stamped (hformed hrun) hcont
  | _ => trivial

/-- What the assertions about the queue of an update demand. -/
def GrQueueDemands (s : ServerId c) (st : GrServerState c) : GrEvent c → Prop
  | .replicaUpdate update => (replicaUpdateEnqueue (grUpdateRules s) st.store
      (st.replicaUpdateQueues update.sourceReplica) update).isSome
  | .replicaUpdateUnlocked update => (replicaUpdateDequeue (grUpdateRules s) st.store
      (st.replicaUpdateQueues update.sourceReplica) update).isSome
  | _ => True

/-- **What the assertions demand is met** by everything whose turn has come, in every run, except
for the assertions about the queues of updates. -/
theorem gr_demands (hr : Run (grProgram c) C (grWorld setup).config A h)
    {x : Task (ServerId c) (ClientId c) (GrEvent c)} {t : ℚ} {tb tb' : LockTable} (hx : x ∈ A.pool)
    (ht : A.now ≤ t) (hready : Ready s t tb x e tb') (hqueue : GrQueueDemands s (A.server s) e) :
    GrDemands s { A.server s with now := t, clock := c.clock s t } e := by
  have hfresh := grWorld_fresh setup
  have hmail : Mail.Run (grProgram c) (fun _ => True) (grWorld setup).config.mail A.mail h :=
    hr.mail fun _ _ => trivial
  have hmem : (.inl s, e) ∈ A.mail.events := Config.mem_mail hx hready.event?
  have hplaced := (hr.exclusive (grReplicating c).disciplined hfresh.exclusive).placed x hx
  have hformed := gr_formed hmail
  have hslot := gr_slot_live hmail hmem
  cases e with
  | getRequest request =>
    have hrouted := (gr_routed hmail).2 _ hmem
    exact fun hkey => Routed.proxy_eq_none hrouted hkey
  | putRequest request =>
    have hrouted := (gr_routed hmail).2 _ hmem
    exact fun hkey => Routed.proxy_eq_none hrouted hkey
  | getRequestLocked id =>
    obtain ⟨y, hy⟩ := hslot ⟨s, .get, id⟩ rfl
    obtain ⟨getState, hget, -⟩ := Option.map_eq_some_iff.mp hy
    exact ⟨getState, hget⟩
  | getRequestUnlocked id =>
    obtain ⟨y, hy⟩ := hslot ⟨s, .get, id⟩ rfl
    obtain ⟨getState, hget, -⟩ := Option.map_eq_some_iff.mp hy
    exact ⟨getState, hget, ownsKey_of_lpidForKey ((hformed.1 s).get id getState hget).1⟩
  | putRequestLocked id =>
    obtain ⟨y, hy⟩ := hslot ⟨s, .put, id⟩ rfl
    obtain ⟨putState, hget, -⟩ := Option.map_eq_some_iff.mp hy
    exact ⟨putState, hget, ownsKey_of_lpidForKey ((hformed.1 s).put id putState hget).1⟩
  | putRequestUnlocked id =>
    obtain ⟨u, rfl⟩ := hready.released hplaced ((grReplicating c).kind_made rfl)
    exact gr_put_stamped hr s _ u hx
  | replicaUpdate | replicaUpdateUnlocked => exact hqueue
  | replicaUpdateLocked update =>
    exact ⟨Replicating.install_owns (R := grReplicating c) hfresh hr hx hready.event? rfl,
      Replicating.latency_pos (grReplicating_notesTime c) hfresh hr hx hready.event? rfl ht⟩
  | lstFromLeaf leafLst =>
    obtain ⟨hroot, hflag⟩ := (gr_rounds hmail s.1).asserted s.2 _ _ _ hmem rfl
    exact ⟨ne_root_iff.mp hroot, hflag⟩
  | startGstComputation => exact gr_starts_at_leaves hmail _ hmem s s.2 rfl
  | getSnapshotRequestLocked id =>
    obtain ⟨y, hy⟩ := hslot ⟨s, .snapshot, id⟩ rfl
    obtain ⟨snapshot, hget, -⟩ := Option.map_eq_some_iff.mp hy
    exact ⟨snapshot, hget⟩
  | getSnapshotRequestUnlocked id =>
    obtain ⟨y, hy⟩ := hslot ⟨s, .snapshot, id⟩ rfl
    obtain ⟨snapshot, hget, -⟩ := Option.map_eq_some_iff.mp hy
    exact ⟨snapshot, hget⟩
  | sliceRequest request => exact ownsKey_of_lpidForKey (hformed.2 _ hmem)
  | sliceRequestUnlocked request => exact ownsKey_of_lpidForKey (hformed.2 _ hmem)
  | sliceResponse slice | sliceResponseUnlocked slice =>
    obtain ⟨y, hy⟩ := hslot ⟨s, .snapshot, slice.snapshotId⟩ rfl
    obtain ⟨snapshot, hget, -⟩ := Option.map_eq_some_iff.mp hy
    obtain ⟨rotx, hrotx⟩ := gr_rotx_live hmail hget
    exact ⟨snapshot, rotx, hget, (hformed.1 s).snapshot _ snapshot hget, hrotx⟩
  | getSnapshotResponse response => exact gr_noSnapshotResponse hmail _ hmem response rfl
  | rotxResponse | clientTick =>
    obtain ⟨k, hk⟩ := gr_forClients hmail _ hmem trivial
    cases hk
  | _ => trivial

/-- The handlers of updates that can find a queue in disorder. -/
def GrEvent.OfQueue : GrEvent c → Prop
  | .replicaUpdate _ => True
  | .replicaUpdateUnlocked _ => True
  | _ => False

instance : DecidablePred (GrEvent.OfQueue (c := c)) := fun e => by
  unfold GrEvent.OfQueue
  split <;> infer_instance

/-- If updates are handled in the order in which they were made, the queues are in order. -/
theorem gr_queueDemands
    (hr : Run (grProgram c) (grReplicating c).UpdatesInOrder (grWorld setup).config A h)
    {x : Task (ServerId c) (ClientId c) (GrEvent c)} {t : ℚ} {tb tb' : LockTable} (hx : x ∈ A.pool)
    (hready : Ready s t tb x e tb') : GrQueueDemands s (A.server s) e := by
  have hfresh := grWorld_fresh setup
  have hE : (grReplicating c).Enforces (grReplicating c).UpdatesInOrder
      ⟨True, False, False, False, False, False⟩ :=
    Replicating.enforces (fun _ _ _ h => h) False.elim False.elim False.elim False.elim False.elim
  have hplaced := (hr.exclusive (grReplicating c).disciplined hfresh.exclusive).placed x hx
  cases e with
  | replicaUpdate update =>
    have hpending := hready.arrived hplaced rfl
    exact Replicating.enqueue_isSome hfresh hE hr trivial (hpending ▸ hx) (R := grReplicating c) rfl
  | replicaUpdateUnlocked update =>
    exact Replicating.dequeue_isSome hfresh hE hr trivial hx hready.event?
      (R := grReplicating c) rfl
  | _ => trivial

/-- **No handler fails** whose queue is in order, and what handlers hand over finds its way. -/
theorem gr_handles (hclients : (setup.clients.map Prod.snd).Nodup)
    {conf : NetworkConfig (ServerId c ⊕ ClientId c)} {d : NetworkDelays c}
    (hconf : conf.networkDelay = d.networkDelay) {G : GrEvent c → Prop}
    (hr : Run (grProgram c) C (grWorld setup).config A h)
    (hqueue : ∀ {x s t tb tb' e}, x ∈ A.pool → Ready s t tb x e tb' → G e →
      GrQueueDemands s (A.server s) e) :
    A.Handles (grProgram c) conf G Decision.Valid := by
  refine (gr_disciplined (Q := fun _ => True) hclients
    (hr.mail fun _ _ => trivial)).handles hconf ?_
  intro x s t tb tb' e hx ht hready he
  have hnoted : (A.server s).now ≤ A.now :=
    Run.noted_le GrServerState.now
      (fun hserve => grProcessEvent_now (grServerProcessEvent_some hserve))
      (fun _ => setup.start_pos.le) hr s
  show (grServerProcessEvent s t (A.server s) e).isSome
  unfold grServerProcessEvent
  rw [if_pos (hnoted.trans ht)]
  exact grProcessEvent_isSome (gr_demands hr hx ht hready (hqueue hx hready he))

end Progress

end CCSim
