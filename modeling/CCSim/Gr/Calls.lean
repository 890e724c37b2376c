/-
# The calls of the `gr` handlers

Every handler of `server/protocols/gr` once more, as the list of its calls (`grCalls`).  A list
depends on the state at the beginning of the handler, and on two things the handlers of
`Gr/Protocol.lean` do not need: `ignore_initial_seconds`, and the keys in the store of the server.
The statistics that are taken when the GST increases walk over all of them, and use the same
test of visibility as a GET, which takes CPU time.

The lists agree with the outcomes (`grCalls_describes`), and no lock call is followed by a call it
forbids (`grCalls_locksLast`).
-/
import CCSim.Calls
import CCSim.Gr.Protocol

namespace CCSim

variable {c : Cluster}

abbrev GrCall (c : Cluster) := CpuCall (ServerId c) (ClientId c) (GrEvent c)

section Calls

variable (sizes : Sizes (GrEvent c)) (ignoreInitialSeconds : ℚ) (keys : List Key)
  (self : ServerId c) (st : GrServerState c)

/-- `build_struct_per_byte_time() * message->simulated_size`, for the message of an event. -/
def grBuild (e : GrEvent c) : GrCall c :=
  .addTime (sizes.simulatedSize e) .buildStructPerByteTime

/-! ## 1. The store and the global stable time -/

/-- `gr_is_value_visible`. -/
def grIsValueVisibleCalls (_item : GrItem c) : List (GrCall c) := [.addTime 1 .isValueVisibleTime]

/-- `gr_get_value`. -/
def grGetValueCalls (key : Key) : List (GrCall c) :=
  getValueAtCalls (grIsValueVisible self st.gst) grIsValueVisibleCalls (st.store key)

/-- `gr_put_value`. -/
def grPutValueCalls (key : Key) (item : GrItem c) : List (GrCall c) :=
  .addTime 1 .putValueTime :: if (grPutValue st key item).isNone then [] else [.storePut key]

/-- `gr_stats_gst_update`. -/
def grStatsGstUpdateCalls (oldGst : ℚ) : List (GrCall c) :=
  if st.now < ignoreInitialSeconds then []
  else
    .saveTime :: (keys.flatMap fun key =>
      statsGstUpdateCalls (grIsValueVisible self oldGst) grIsValueVisibleCalls
        grIsValueVisibleCalls (st.store key)) ++ [.restoreTime]

/-- `gr_rotx_on_gst_updated`. -/
def grRotxOnGstUpdatedCalls : List (GrCall c) :=
  st.rotxStates.flatMap fun rotx => match rotx with
    | none => []
    | some rotx =>
      .addTime 1 .updateGstPerRotxTime :: (grRotxGstUpdateCallback st.gst rotx).2.map .output

/-- `gr_update_gst`. -/
def grUpdateGstCalls (gst : ℚ) : List (GrCall c) :=
  .addTime 1 .updateGstTime ::
    if st.gst < gst then
      grStatsGstUpdateCalls ignoreInitialSeconds keys self st st.gst ++
        grRotxOnGstUpdatedCalls { st with gst := gst }
    else []

/-- `min_replica_version`. -/
def grMinReplicaVersionCalls : List (GrCall c) :=
  [.addTime c.numReplicas .minReplicaVersionPerReplicaTime]

/-- `gr_send_lst_to_parent`. -/
def grSendLstToParentCalls : List (GrCall c) :=
  let leafLst : GrEvent c := .lstFromLeaf ⟨self.2, st.minLst⟩
  [grBuild sizes leafLst, .output (.toServer (self.1, parentPartition self.2) leafLst)]

/-- `gr_process_lst_from_leaf`. -/
def grLstFromLeafCalls (leafLst : GrLstFromLeaf c) : List (GrCall c) :=
  let index := childPartitionIndex c leafLst.leafPartitionId
  let lstReceived := countLstReceived c st.lstReceived
  let st := { st with
    minLst := if lstReceived = 0 ∨ leafLst.lst < st.minLst then leafLst.lst else st.minLst
    lstReceived := Function.update st.lstReceived index true }
  .addTime 1 .processLstFromLeafPerReplicaTime ::
    if lstReceived = (numChildrenPartitions self.2 + uintSize - 1) % uintSize then
      let minVersion := grMinReplicaVersion st
      let st := { st with
        lstReceived := fun _ => false
        minLst := if minVersion < st.minLst then minVersion else st.minLst }
      grMinReplicaVersionCalls ++ .addTime 1 .processLstFromLeafEndPerReplicaTime ::
        if self.2.val = 0 then [.lock .mutex grLock .lstFromLeafRootLocked]
        else grSendLstToParentCalls sizes self st
    else []

/-- `gr_process_lst_from_leaf_root_locked`. -/
def grLstFromLeafRootLockedCalls : List (GrCall c) :=
  grUpdateGstCalls ignoreInitialSeconds keys self st st.minLst ++
    [.unlock .mutex grLock (some .lstFromLeafRootUnlocked)]

/-- `gr_send_gst_to_children`. -/
def grSendGstToChildrenCalls : List (GrCall c) :=
  grBuild sizes (.gstFromRoot ⟨st.gst⟩) :: (grSendGst self ⟨st.gst⟩).map .output

/-- `gr_process_gst_from_root`. -/
def grGstFromRootCalls (rootGst : GrGstFromRoot) : List (GrCall c) :=
  [.lock .mutex grLock (.gstFromRootLocked rootGst)]

/-- `gr_process_gst_from_root_locked`. -/
def grGstFromRootLockedCalls (rootGst : GrGstFromRoot) : List (GrCall c) :=
  grUpdateGstCalls ignoreInitialSeconds keys self st rootGst.gst ++
    [.unlock .mutex grLock (some (.gstFromRootUnlocked rootGst))]

/-- `gr_process_gst_from_root_unlocked`. -/
def grGstFromRootUnlockedCalls (rootGst : GrGstFromRoot) : List (GrCall c) :=
  if isLeafPartition self.2 then [.allowNoTime, .output (grScheduleGstComputationStart c)]
  else (grSendGst self rootGst).map .output

/-- `gr_process_start_gst_computation`. -/
def grStartGstComputationCalls : List (GrCall c) :=
  if self.2.val = 0 then
    grUpdateGstCalls ignoreInitialSeconds keys self st (st.versionVector c.replica0) ++
      [.output (grScheduleGstComputationStart c)]
  else
    let leafLst : GrEvent c := .lstFromLeaf ⟨self.2, grMinReplicaVersion st⟩
    grMinReplicaVersionCalls ++
      [grBuild sizes leafLst, .output (.toServer (self.1, parentPartition self.2) leafLst)]

/-! ## 2. GET and PUT -/

/-- `gr_process_get_request_unlocked`. -/
def grGetRequestUnlockedCalls (id : ℕ) : List (GrCall c) :=
  match ptrArrayGet st.getStates id with
  | none => []
  | some getState =>
    let response : GrEvent c := .getResponse (grGetAnswer self st getState)
    grGetValueCalls self st getState.key ++
      [grBuild sizes response, .output (grSend getState.destination response)]

/-- `gr_process_get_request`. -/
def grGetRequestCalls (request : GrGetRequest c) : List (GrCall c) :=
  let keyLocation := lpidForKey self request.key
  .addTime 1 .processGetRequestPreTime ::
    if keyLocation ≠ self then
      if request.proxy ≠ none then []
      else
        let request := { request with proxy := some self }
        .output (.toServer keyLocation (.getRequest request)) :: .addTime 1 .checkGstTime ::
          if grGstNeedUpdate st request.gst then
            [.lock .mutex grLock (.forwardGetRequestLocked request)]
          else []
    else
      let getState : GrGetState c :=
        { key := request.key, gst := request.gst, client := request.client, past := request.past
          destination := replyTo request.client request.proxy }
      let id := ptrArrayFree st.getStates
      let st := { st with getStates := ptrArrayPut getState st.getStates }
      .addTime 1 .checkGstTime ::
        if grGstNeedUpdate st getState.gst then [.lock .mutex grLock (.getRequestLocked id)]
        else grGetRequestUnlockedCalls sizes self st id

/-- `gr_process_forward_get_request_locked`. -/
def grForwardGetRequestLockedCalls (request : GrGetRequest c) : List (GrCall c) :=
  grUpdateGstCalls ignoreInitialSeconds keys self st request.gst ++ [.unlock .mutex grLock none]

/-- `gr_process_get_request_locked`. -/
def grGetRequestLockedCalls (id : ℕ) : List (GrCall c) :=
  match ptrArrayGet st.getStates id with
  | none => []
  | some getState =>
    grUpdateGstCalls ignoreInitialSeconds keys self st getState.gst ++
      [.unlock .mutex grLock (some (.getRequestUnlocked id))]

/-- `gr_process_put_request`. -/
def grPutRequestCalls (request : GrPutRequest c) : List (GrCall c) :=
  let keyLocation := lpidForKey self request.key
  .addTime 1 .processPutRequestPreTime ::
    if keyLocation ≠ self then
      if request.proxy ≠ none then []
      else [.output (.toServer keyLocation (.putRequest { request with proxy := some self }))]
    else if st.clock < request.dependencyTime then
      [.output (.self (request.dependencyTime - st.clock) (.putRequest request))]
    else
      [.addTime sizes.putResponse .buildStructPerByteTime,
        .lock .mutex grLock (.putRequestLocked (ptrArrayFree st.putStates))]

/-- `gr_process_put_request_locked`. -/
def grPutRequestLockedCalls (id : ℕ) : List (GrCall c) :=
  match ptrArrayGet st.putStates id with
  | none => []
  | some putState =>
    grPutValueCalls st putState.key (grPutItem self st putState) ++
      [.unlock .mutex grLock (some (.putRequestUnlocked id))]

/-- `gr_replicate_value`. -/
def grReplicateValueCalls (update : GrReplicaUpdate c) : List (GrCall c) :=
  grBuild sizes (.replicaUpdate update) :: (grReplicateValue self update).map .output

/-- `gr_process_put_request_unlocked`. -/
def grPutRequestUnlockedCalls (id : ℕ) : List (GrCall c) :=
  match ptrArrayGet st.putStates id with
  | none => []
  | some putState =>
    match putState.stamp with
    | none => []
    | some stamp =>
      .output (grSend putState.destination (.putResponse (grPutAnswer self putState stamp))) ::
        if stamp.discarded then []
        else grReplicateValueCalls sizes self (grPutUpdate self putState stamp)

/-! ## 3. Replication, heartbeats and clock ticks -/

/-- The request for the lock under which an update is installed. -/
def grReplicaUpdateLock (update : GrReplicaUpdate c) : GrCall c :=
  .lock .mutex (grReplicaLock update.sourceReplica) (.replicaUpdateLocked update)

/-- `gr_process_replica_update`. -/
def grReplicaUpdateCalls (update : GrReplicaUpdate c) : List (GrCall c) :=
  if st.replicaUpdateQueues update.sourceReplica = [] then
    replicaUpdateWorkCalls (grUpdateRules self) st.store grReplicaUpdateLock [update]
  else [.allowNoTime]

/-- `gr_process_replica_update_locked`. -/
def grReplicaUpdateLockedCalls (update : GrReplicaUpdate c) : List (GrCall c) :=
  grPutValueCalls st update.key update.item ++
    [.unlock .mutex (grReplicaLock update.sourceReplica) (some (.replicaUpdateUnlocked update))]

/-- `gr_process_replica_update_unlocked`. -/
def grReplicaUpdateUnlockedCalls (update : GrReplicaUpdate c) : List (GrCall c) :=
  replicaUpdateWorkCalls (grUpdateRules self) st.store grReplicaUpdateLock
    (st.replicaUpdateQueues update.sourceReplica).tail

/-- `gr_process_heartbeat`. -/
def grHeartbeatCalls (heartbeat : GrHeartbeat c) : List (GrCall c) :=
  .addTime 1 .processHeartbeatTime ::
    if st.versionVector heartbeat.replica < heartbeat.time then
      [.lock .mutex (grReplicaLock heartbeat.replica) (.heartbeatLocked heartbeat)]
    else []

/-- `gr_process_heartbeat_locked`. -/
def grHeartbeatLockedCalls (heartbeat : GrHeartbeat c) : List (GrCall c) :=
  [.addTime 1 .processHeartbeatTime, .unlock .mutex (grReplicaLock heartbeat.replica) none]

/-- `gr_process_clock_tick_unlocked`. -/
def grClockTickUnlockedCalls (sendTime : Bool) : List (GrCall c) :=
  grBuild sizes (.heartbeat ⟨self.1, if sendTime then st.clock else 0⟩) ::
    (grSendHeartbeat self st sendTime).map .output ++ [.output (.self c.clockInterval .clockTick)]

/-- `gr_process_clock_tick`. -/
def grClockTickCalls : List (GrCall c) :=
  .addTime 1 .processClockTickTime ::
    if st.versionVector self.1 + c.clockInterval ≤ st.clock then
      [.lock .mutex grLock .clockTickLocked]
    else grClockTickUnlockedCalls sizes self st false

/-- `gr_process_clock_tick_locked`. -/
def grClockTickLockedCalls : List (GrCall c) :=
  [.addTime 1 .processClockTickTime,
    .unlock .mutex grLock (some (.clockTickUnlocked
      (decide (st.versionVector self.1 + c.clockInterval ≤ st.clock))))]

/-! ## 4. Read-only transactions -/

/-- `gr_process_rotx_request`. -/
def grRotxRequestCalls (request : GrGetRotxRequest c) : List (GrCall c) :=
  let snapshotRequest : GrGetSnapshotRequest c :=
    { requestId := ptrArrayFree st.rotxStates, client := .server self, gst := request.gst
      keys := request.keys }
  .addTime (sizes.rotxState + sizes.key * request.keys.length) .buildStructPerByteTime ::
    grBuild sizes (.getSnapshotRequest snapshotRequest) ::
      if request.dependencyTime ≤ st.gst then
        [.output (.self 0 (.getSnapshotRequest snapshotRequest))]
      else []

/-- `gr_process_get_snapshot_request`. -/
def grGetSnapshotRequestCalls (request : GrGetSnapshotRequest c) : List (GrCall c) :=
  [.addTime (sizes.snapshotState + request.keys.length * (sizes.key + sizes.value))
      .buildStructPerByteTime,
    .lock .mutex grLock (.getSnapshotRequestLocked (ptrArrayFree st.snapshotStates))]

/-- `gr_process_get_snapshot_request_locked`. -/
def grGetSnapshotRequestLockedCalls (id : ℕ) : List (GrCall c) :=
  match ptrArrayGet st.snapshotStates id with
  | none => []
  | some snapshot =>
    grUpdateGstCalls ignoreInitialSeconds keys self st snapshot.gst ++
      [.unlock .mutex grLock (some (.getSnapshotRequestUnlocked id))]

/-- `gr_process_get_snapshot_request_unlocked`.  One message is built, and sent with every key;
when it is built its key is not set yet. -/
def grGetSnapshotRequestUnlockedCalls (id : ℕ) : List (GrCall c) :=
  match ptrArrayGet st.snapshotStates id with
  | none => []
  | some snapshot =>
    grBuild sizes (.sliceRequest
        { fromLpid := self, snapshotTime := snapshot.time, snapshotId := id, key := 0
          keyId := 0 }) ::
      (grSliceRequests self id snapshot).map .output

/-- `gr_process_slice_request_unlocked`; the test of `is_value_visible_snapshot` takes no time. -/
def grSliceRequestUnlockedCalls (request : GrSliceRequest c) : List (GrCall c) :=
  let response : GrEvent c := .sliceResponse (grSliceAnswer st request)
  getValueAtCalls (grIsValueVisibleSnapshot request.snapshotTime) (fun _ => [])
      (st.store request.key) ++
    [grBuild sizes response, .output (.toServer request.fromLpid response)]

/-- `gr_process_slice_request`. -/
def grSliceRequestCalls (request : GrSliceRequest c) : List (GrCall c) :=
  .addTime 1 .checkGstTime ::
    if grGstNeedUpdate st request.snapshotTime then
      [.lock .mutex grLock (.sliceRequestLocked request)]
    else grSliceRequestUnlockedCalls sizes st request

/-- `gr_process_slice_request_locked`. -/
def grSliceRequestLockedCalls (request : GrSliceRequest c) : List (GrCall c) :=
  grUpdateGstCalls ignoreInitialSeconds keys self st request.snapshotTime ++
    [.unlock .mutex grLock (some (.sliceRequestUnlocked request))]

/-- `gr_process_rotx_snapshot_response`. -/
def grRotxSnapshotResponseCalls (snapshot : GrGetSnapshotResponse c) : List (GrCall c) :=
  match ptrArrayGet st.rotxStates snapshot.requestId with
  | none => []
  | some rotx =>
    let response : GrEvent c := .rotxResponse (grRotxAnswer rotx snapshot)
    [grBuild sizes response, .output (.toClient rotx.client response)]

/-- `gr_send_snapshot_response`. -/
def grSendSnapshotResponseCalls (snapshot : GrSnapshotState c) : List (GrCall c) :=
  let response := grSnapshotAnswer snapshot
  grBuild sizes (.getSnapshotResponse response) ::
    if snapshot.client = .server self then grRotxSnapshotResponseCalls sizes st response
    else [.output (grSend snapshot.client (.getSnapshotResponse response))]

/-- `gr_process_slice_response_unlocked`. -/
def grSliceResponseUnlockedCalls (slice : GrSliceResponse c) : List (GrCall c) :=
  match ptrArrayGet st.snapshotStates slice.snapshotId with
  | none => []
  | some snapshot =>
    let snapshot := grReceiveSlice snapshot slice
    .addTime 1 .processSliceResponsePerValueTime ::
      if snapshot.receivedValues = snapshot.keys.length then
        grSendSnapshotResponseCalls sizes self st snapshot
      else []

/-- `gr_process_slice_response`. -/
def grSliceResponseCalls (slice : GrSliceResponse c) : List (GrCall c) :=
  .addTime 1 .checkGstTime ::
    if grGstNeedUpdate st slice.gst then [.lock .mutex grLock (.sliceResponseLocked slice)]
    else grSliceResponseUnlockedCalls sizes self st slice

/-- `gr_process_slice_response_locked`. -/
def grSliceResponseLockedCalls (slice : GrSliceResponse c) : List (GrCall c) :=
  grUpdateGstCalls ignoreInitialSeconds keys self st slice.gst ++
    [.unlock .mutex grLock (some (.sliceResponseUnlocked slice))]

/-! ## 5. The dispatcher -/

/-- `gr_process_event`. -/
def grCalls : GrEvent c → List (GrCall c)
  | .getRequest request => grGetRequestCalls sizes self st request
  | .forwardGetRequestLocked request =>
    grForwardGetRequestLockedCalls ignoreInitialSeconds keys self st request
  | .getRequestLocked id => grGetRequestLockedCalls ignoreInitialSeconds keys self st id
  | .getRequestUnlocked id => grGetRequestUnlockedCalls sizes self st id
  | .getResponse response => [.output (.toClient response.client (.getResponse response))]
  | .putRequest request => grPutRequestCalls sizes self st request
  | .putRequestLocked id => grPutRequestLockedCalls self st id
  | .putRequestUnlocked id => grPutRequestUnlockedCalls sizes self st id
  | .putResponse response => [.output (.toClient response.client (.putResponse response))]
  | .replicaUpdate update => grReplicaUpdateCalls self st update
  | .replicaUpdateLocked update => grReplicaUpdateLockedCalls st update
  | .replicaUpdateUnlocked update => grReplicaUpdateUnlockedCalls self st update
  | .lstFromLeaf leafLst => grLstFromLeafCalls sizes self st leafLst
  | .lstFromLeafRootLocked => grLstFromLeafRootLockedCalls ignoreInitialSeconds keys self st
  | .lstFromLeafRootUnlocked => grSendGstToChildrenCalls sizes self st
  | .startGstComputation => grStartGstComputationCalls sizes ignoreInitialSeconds keys self st
  | .gstFromRoot rootGst => grGstFromRootCalls rootGst
  | .gstFromRootLocked rootGst =>
    grGstFromRootLockedCalls ignoreInitialSeconds keys self st rootGst
  | .gstFromRootUnlocked rootGst => grGstFromRootUnlockedCalls self rootGst
  | .getSnapshotRequest request => grGetSnapshotRequestCalls sizes st request
  | .getSnapshotRequestLocked id =>
    grGetSnapshotRequestLockedCalls ignoreInitialSeconds keys self st id
  | .getSnapshotRequestUnlocked id => grGetSnapshotRequestUnlockedCalls sizes self st id
  | .sliceRequest request => grSliceRequestCalls sizes st request
  | .sliceRequestLocked request =>
    grSliceRequestLockedCalls ignoreInitialSeconds keys self st request
  | .sliceRequestUnlocked request => grSliceRequestUnlockedCalls sizes st request
  | .sliceResponse slice => grSliceResponseCalls sizes self st slice
  | .sliceResponseLocked slice => grSliceResponseLockedCalls ignoreInitialSeconds keys self st slice
  | .sliceResponseUnlocked slice => grSliceResponseUnlockedCalls sizes self st slice
  | .rotxRequest request => grRotxRequestCalls sizes self st request
  | .clockTick => grClockTickCalls sizes self st
  | .clockTickLocked => grClockTickLockedCalls self st
  | .clockTickUnlocked sendTime => grClockTickUnlockedCalls sizes self st sendTime
  | .heartbeat heartbeat => grHeartbeatCalls st heartbeat
  | .heartbeatLocked heartbeat => grHeartbeatLockedCalls heartbeat
  | .getSnapshotResponse _ => []
  | .rotxResponse _ => []
  | .clientTick => []

end Calls

/-! ## 6. The lists and the outcomes -/

section Describes

variable {sizes : Sizes (GrEvent c)} {ignoreInitialSeconds : ℚ} {keys : List Key}
  {self : ServerId c} {st : GrServerState c}

theorem grIsValueVisibleCalls_timeOnly (item : GrItem c) : TimeOnly (grIsValueVisibleCalls item) :=
  .cons rfl timeOnly_nil

theorem grGetValueCalls_timeOnly (key : Key) : TimeOnly (grGetValueCalls self st key) :=
  getValueAtCalls_timeOnly grIsValueVisibleCalls_timeOnly _

theorem grStatsGstUpdateCalls_timeOnly (oldGst : ℚ) :
    TimeOnly (grStatsGstUpdateCalls ignoreInitialSeconds keys self st oldGst) := by
  unfold grStatsGstUpdateCalls
  split
  · exact timeOnly_nil
  · refine .cons rfl (.append (.flatMap fun key _ => ?_) (.cons rfl timeOnly_nil))
    exact forall_mem_statsGstUpdateCalls grIsValueVisibleCalls_timeOnly
      grIsValueVisibleCalls_timeOnly _

theorem grMinReplicaVersionCalls_timeOnly : TimeOnly (grMinReplicaVersionCalls (c := c)) :=
  .cons rfl timeOnly_nil

theorem grRotxOnGstUpdatedCalls_outs :
    callOuts (grRotxOnGstUpdatedCalls st) = (grRotxOnGstUpdated st).2 := by
  unfold grRotxOnGstUpdatedCalls grRotxOnGstUpdated
  generalize st.rotxStates = rotxStates
  induction rotxStates with
  | nil => rfl
  | cons rotx rotxStates ih =>
    rw [List.flatMap_cons, List.flatMap_cons, callOuts_append, ih]
    cases rotx with
    | none => rfl
    | some rotx => simp only [callOuts_cons, callOuts_map_output]; rfl

theorem grRotxOnGstUpdatedCalls_lockFree : LockFree (grRotxOnGstUpdatedCalls st) := by
  refine .flatMap fun rotx _ => ?_
  cases rotx with
  | none => exact lockFree_nil
  | some rotx => exact .cons rfl (lockFree_map_output _)

theorem grRotxOnGstUpdatedCalls_noTime : callNoTime (grRotxOnGstUpdatedCalls st) = false := by
  refine List.any_eq_false.mpr fun call hcall => ?_
  obtain ⟨rotx, -, hcall⟩ := List.mem_flatMap.mp hcall
  cases rotx with
  | none => cases hcall
  | some rotx =>
    rcases List.mem_cons.mp hcall with rfl | hcall
    · exact Bool.false_ne_true
    · obtain ⟨o, -, rfl⟩ := List.mem_map.mp hcall
      exact Bool.false_ne_true

theorem grUpdateGstCalls_lockFree (gst : ℚ) :
    LockFree (grUpdateGstCalls ignoreInitialSeconds keys self st gst) := by
  refine .cons rfl ?_
  split
  · exact (grStatsGstUpdateCalls_timeOnly _).lockFree.append grRotxOnGstUpdatedCalls_lockFree
  · exact lockFree_nil

theorem grUpdateGstCalls_outs (gst : ℚ) :
    callOuts (grUpdateGstCalls ignoreInitialSeconds keys self st gst) = (grUpdateGst st gst).2 := by
  unfold grUpdateGstCalls grUpdateGst
  rw [callOuts_cons]
  split
  · rw [callOuts_append, (grStatsGstUpdateCalls_timeOnly _).outs, grRotxOnGstUpdatedCalls_outs]
    rfl
  · rfl

theorem grUpdateGstCalls_noTime (gst : ℚ) :
    callNoTime (grUpdateGstCalls ignoreInitialSeconds keys self st gst) = false := by
  unfold grUpdateGstCalls
  rw [callNoTime_cons]
  split
  · rw [callNoTime_append, (grStatsGstUpdateCalls_timeOnly _).noTime,
      grRotxOnGstUpdatedCalls_noTime]
    rfl
  · rfl

/-- A handler that updates the GST and gives its lock back. -/
theorem grUpdateGst_describes (gst : ℚ) (e : Option (GrEvent c)) (st' : GrServerState c) :
    CpuCall.Describes (grUpdateGstCalls ignoreInitialSeconds keys self st gst ++
      [.unlock .mutex grLock e])
      ({ state := st', outs := (grUpdateGst st gst).2
         cont := .unlock .mutex grLock e } : GrOutcome c) where
  outs := by rw [callOuts_append, grUpdateGstCalls_outs]; exact List.append_nil _
  cont := (grUpdateGstCalls_lockFree gst).cont
  noTime := by rw [callNoTime_append, grUpdateGstCalls_noTime]; rfl

/-! ### Lock calls -/

theorem grPutValueCalls_lockFree (key : Key) (item : GrItem c) :
    LockFree (grPutValueCalls st key item) := by
  refine .cons rfl ?_
  split
  · exact lockFree_nil
  · exact .cons rfl lockFree_nil

theorem grUpdateGst_locksLast (gst : ℚ) (call : GrCall c) :
    LocksLast (grUpdateGstCalls ignoreInitialSeconds keys self st gst ++ [call]) :=
  .append (grUpdateGstCalls_lockFree gst) (locksLast_singleton _)

theorem grLstFromLeafCalls_locksLast (leafLst : GrLstFromLeaf c) :
    LocksLast (grLstFromLeafCalls sizes self st leafLst) := by
  refine .cons rfl ?_
  split
  · refine .append grMinReplicaVersionCalls_timeOnly.lockFree (.cons rfl ?_)
    split
    · exact locksLast_singleton _
    · exact .cons rfl (locksLast_singleton _)
  · exact locksLast_nil

theorem grStartGstComputationCalls_locksLast :
    LocksLast (grStartGstComputationCalls sizes ignoreInitialSeconds keys self st) := by
  unfold grStartGstComputationCalls
  split
  · exact grUpdateGst_locksLast _ _
  · exact .append grMinReplicaVersionCalls_timeOnly.lockFree
      (.cons rfl (locksLast_singleton _))

theorem grGstFromRootUnlockedCalls_locksLast (rootGst : GrGstFromRoot) :
    LocksLast (grGstFromRootUnlockedCalls self rootGst) := by
  unfold grGstFromRootUnlockedCalls
  split
  · exact .cons rfl (locksLast_singleton _)
  · exact (lockFree_map_output _).locksLast

theorem grGetRequestUnlockedCalls_locksLast (id : ℕ) :
    LocksLast (grGetRequestUnlockedCalls sizes self st id) := by
  unfold grGetRequestUnlockedCalls
  split
  · exact locksLast_nil
  · exact .append (grGetValueCalls_timeOnly _).lockFree (.cons rfl (locksLast_singleton _))

theorem grGetRequestCalls_locksLast (request : GrGetRequest c) :
    LocksLast (grGetRequestCalls sizes self st request) := by
  refine .cons rfl ?_
  split
  · split
    · exact locksLast_nil
    · refine .cons rfl (.cons rfl ?_)
      split
      · exact locksLast_singleton _
      · exact locksLast_nil
  · refine .cons rfl ?_
    split
    · exact locksLast_singleton _
    · exact grGetRequestUnlockedCalls_locksLast _

theorem grGetRequestLockedCalls_locksLast (id : ℕ) :
    LocksLast (grGetRequestLockedCalls ignoreInitialSeconds keys self st id) := by
  unfold grGetRequestLockedCalls
  split
  · exact locksLast_nil
  · exact grUpdateGst_locksLast _ _

theorem grPutRequestCalls_locksLast (request : GrPutRequest c) :
    LocksLast (grPutRequestCalls sizes self st request) := by
  refine .cons rfl ?_
  split
  · split
    · exact locksLast_nil
    · exact locksLast_singleton _
  · split
    · exact locksLast_singleton _
    · exact .cons rfl (locksLast_singleton _)

theorem grPutRequestLockedCalls_locksLast (id : ℕ) :
    LocksLast (grPutRequestLockedCalls self st id) := by
  unfold grPutRequestLockedCalls
  split
  · exact locksLast_nil
  · exact .append (grPutValueCalls_lockFree _ _) (locksLast_singleton _)

theorem grPutRequestUnlockedCalls_locksLast (id : ℕ) :
    LocksLast (grPutRequestUnlockedCalls sizes self st id) := by
  unfold grPutRequestUnlockedCalls
  split
  · exact locksLast_nil
  · split
    · exact locksLast_nil
    · refine .cons rfl ?_
      split
      · exact locksLast_nil
      · exact .cons rfl (lockFree_map_output _).locksLast

theorem grReplicaUpdateCalls_locksLast (update : GrReplicaUpdate c) :
    LocksLast (grReplicaUpdateCalls self st update) := by
  unfold grReplicaUpdateCalls
  split
  · exact replicaUpdateWorkCalls_locksLast _
  · exact locksLast_singleton _

theorem grHeartbeatCalls_locksLast (heartbeat : GrHeartbeat c) :
    LocksLast (grHeartbeatCalls st heartbeat) := by
  refine .cons rfl ?_
  split
  · exact locksLast_singleton _
  · exact locksLast_nil

theorem grClockTickUnlockedCalls_locksLast (sendTime : Bool) :
    LocksLast (grClockTickUnlockedCalls sizes self st sendTime) :=
  .cons rfl (.append (lockFree_map_output _) (locksLast_singleton _))

theorem grClockTickCalls_locksLast : LocksLast (grClockTickCalls sizes self st) := by
  refine .cons rfl ?_
  split
  · exact locksLast_singleton _
  · exact grClockTickUnlockedCalls_locksLast _

theorem grRotxRequestCalls_locksLast (request : GrGetRotxRequest c) :
    LocksLast (grRotxRequestCalls sizes self st request) := by
  refine .cons rfl (.cons rfl ?_)
  split
  · exact locksLast_singleton _
  · exact locksLast_nil

theorem grGetSnapshotRequestLockedCalls_locksLast (id : ℕ) :
    LocksLast (grGetSnapshotRequestLockedCalls ignoreInitialSeconds keys self st id) := by
  unfold grGetSnapshotRequestLockedCalls
  split
  · exact locksLast_nil
  · exact grUpdateGst_locksLast _ _

theorem grGetSnapshotRequestUnlockedCalls_locksLast (id : ℕ) :
    LocksLast (grGetSnapshotRequestUnlockedCalls sizes self st id) := by
  unfold grGetSnapshotRequestUnlockedCalls
  split
  · exact locksLast_nil
  · exact .cons rfl (lockFree_map_output _).locksLast

theorem grSliceRequestUnlockedCalls_locksLast (request : GrSliceRequest c) :
    LocksLast (grSliceRequestUnlockedCalls sizes st request) :=
  .append (getValueAtCalls_timeOnly (fun _ => timeOnly_nil) _).lockFree
    (.cons rfl (locksLast_singleton _))

theorem grSliceRequestCalls_locksLast (request : GrSliceRequest c) :
    LocksLast (grSliceRequestCalls sizes st request) := by
  refine .cons rfl ?_
  split
  · exact locksLast_singleton _
  · exact grSliceRequestUnlockedCalls_locksLast _

theorem grSliceResponseUnlockedCalls_locksLast (slice : GrSliceResponse c) :
    LocksLast (grSliceResponseUnlockedCalls sizes self st slice) := by
  unfold grSliceResponseUnlockedCalls
  split
  · exact locksLast_nil
  · refine .cons rfl ?_
    split
    · refine .cons rfl ?_
      split
      · unfold grRotxSnapshotResponseCalls
        split
        · exact locksLast_nil
        · exact .cons rfl (locksLast_singleton _)
      · exact locksLast_singleton _
    · exact locksLast_nil

theorem grSliceResponseCalls_locksLast (slice : GrSliceResponse c) :
    LocksLast (grSliceResponseCalls sizes self st slice) := by
  refine .cons rfl ?_
  split
  · exact locksLast_singleton _
  · exact grSliceResponseUnlockedCalls_locksLast _

/-- **Lock calls are tail calls in `gr`.** -/
theorem grCalls_locksLast (e : GrEvent c) :
    LocksLast (grCalls sizes ignoreInitialSeconds keys self st e) := by
  cases e with
  | getRequest request => exact grGetRequestCalls_locksLast request
  | forwardGetRequestLocked request => exact grUpdateGst_locksLast _ _
  | getRequestLocked id => exact grGetRequestLockedCalls_locksLast id
  | getRequestUnlocked id => exact grGetRequestUnlockedCalls_locksLast id
  | getResponse response => exact locksLast_singleton _
  | putRequest request => exact grPutRequestCalls_locksLast request
  | putRequestLocked id => exact grPutRequestLockedCalls_locksLast id
  | putRequestUnlocked id => exact grPutRequestUnlockedCalls_locksLast id
  | putResponse response => exact locksLast_singleton _
  | replicaUpdate update => exact grReplicaUpdateCalls_locksLast update
  | replicaUpdateLocked update =>
    exact .append (grPutValueCalls_lockFree _ _) (locksLast_singleton _)
  | replicaUpdateUnlocked update => exact replicaUpdateWorkCalls_locksLast _
  | lstFromLeaf leafLst => exact grLstFromLeafCalls_locksLast leafLst
  | lstFromLeafRootLocked => exact grUpdateGst_locksLast _ _
  | lstFromLeafRootUnlocked => exact .cons rfl (lockFree_map_output _).locksLast
  | startGstComputation => exact grStartGstComputationCalls_locksLast
  | gstFromRoot rootGst => exact locksLast_singleton _
  | gstFromRootLocked rootGst => exact grUpdateGst_locksLast _ _
  | gstFromRootUnlocked rootGst => exact grGstFromRootUnlockedCalls_locksLast rootGst
  | getSnapshotRequest request => exact .cons rfl (locksLast_singleton _)
  | getSnapshotRequestLocked id => exact grGetSnapshotRequestLockedCalls_locksLast id
  | getSnapshotRequestUnlocked id => exact grGetSnapshotRequestUnlockedCalls_locksLast id
  | getSnapshotResponse response => exact locksLast_nil
  | sliceRequest request => exact grSliceRequestCalls_locksLast request
  | sliceRequestLocked request => exact grUpdateGst_locksLast _ _
  | sliceRequestUnlocked request => exact grSliceRequestUnlockedCalls_locksLast request
  | sliceResponse slice => exact grSliceResponseCalls_locksLast slice
  | sliceResponseLocked slice => exact grUpdateGst_locksLast _ _
  | sliceResponseUnlocked slice => exact grSliceResponseUnlockedCalls_locksLast slice
  | rotxRequest request => exact grRotxRequestCalls_locksLast request
  | rotxResponse response => exact locksLast_nil
  | clockTick => exact grClockTickCalls_locksLast
  | clockTickLocked => exact .cons rfl (locksLast_singleton _)
  | clockTickUnlocked sendTime => exact grClockTickUnlockedCalls_locksLast sendTime
  | heartbeat heartbeat => exact grHeartbeatCalls_locksLast heartbeat
  | heartbeatLocked heartbeat => exact .cons rfl (locksLast_singleton _)
  | clientTick => exact locksLast_nil

/-! ### Outcomes -/

variable {r : GrOutcome c}

theorem grSendLstToParentCalls_describes (h : grSendLstToParent self st = some r) :
    CpuCall.Describes (grSendLstToParentCalls sizes self st) r := by
  unfold grSendLstToParent at h
  split at h <;> cases h
  exact ⟨rfl, rfl, rfl⟩

theorem grLstFromLeafCalls_describes {leafLst : GrLstFromLeaf c}
    (h : grProcessLstFromLeaf self st leafLst = some r) :
    CpuCall.Describes (grLstFromLeafCalls sizes self st leafLst) r := by
  unfold grProcessLstFromLeaf at h
  unfold grLstFromLeafCalls
  dsimp only at h ⊢
  split at h
  · cases h
  · split at h <;> rename_i hall
    · rw [if_pos hall]
      split at h <;> rename_i hroot
      · rw [if_pos hroot]
        cases h
        exact ⟨rfl, rfl, rfl⟩
      · rw [if_neg hroot]
        exact .cons rfl (.cons rfl (.cons rfl (grSendLstToParentCalls_describes h)))
    · rw [if_neg hall]
      cases h
      exact ⟨rfl, rfl, rfl⟩

theorem grGstFromRootUnlockedCalls_describes {rootGst : GrGstFromRoot}
    (h : grProcessGstFromRootUnlocked self st rootGst = some r) :
    CpuCall.Describes (grGstFromRootUnlockedCalls self rootGst) r := by
  unfold grProcessGstFromRootUnlocked at h
  unfold grGstFromRootUnlockedCalls
  split at h <;> rename_i hleaf <;> cases h
  · rw [if_pos hleaf]
    exact ⟨rfl, rfl, rfl⟩
  · rw [if_neg hleaf]
    exact ⟨callOuts_map_output _, (lockFree_map_output _).cont_done, callNoTime_map_output _⟩

theorem grStartGstComputationCalls_describes
    (h : grProcessStartGstComputation self st = some r) :
    CpuCall.Describes (grStartGstComputationCalls sizes ignoreInitialSeconds keys self st) r := by
  unfold grProcessStartGstComputation at h
  unfold grStartGstComputationCalls
  split at h
  · split at h <;> rename_i hroot <;> cases h
    · rw [if_pos hroot]
      refine ⟨?_, ?_, ?_⟩
      · rw [callOuts_append, grUpdateGstCalls_outs]
        rfl
      · exact (grUpdateGstCalls_lockFree _).cont
      · rw [callNoTime_append, grUpdateGstCalls_noTime]
        rfl
    · rw [if_neg hroot]
      exact ⟨rfl, rfl, rfl⟩
  · cases h

theorem grGetRequestUnlockedCalls_describes {id : ℕ}
    (h : grProcessGetRequestUnlocked self st id = some r) :
    CpuCall.Describes (grGetRequestUnlockedCalls sizes self st id) r := by
  unfold grProcessGetRequestUnlocked at h
  unfold grGetRequestUnlockedCalls
  cases hget : ptrArrayGet st.getStates id with
  | none =>
    rw [hget] at h
    cases h
  | some getState =>
    rw [hget] at h
    dsimp only at h
    split at h <;> cases h
    exact .after_time (grGetValueCalls_timeOnly _) ⟨rfl, rfl, rfl⟩

theorem grGetRequestCalls_describes {request : GrGetRequest c}
    (h : grProcessGetRequest self st request = some r) :
    CpuCall.Describes (grGetRequestCalls sizes self st request) r := by
  unfold grProcessGetRequest at h
  unfold grGetRequestCalls
  dsimp only at h ⊢
  split at h <;> rename_i howns
  · rw [if_pos howns]
    split at h <;> rename_i hproxy <;> cases h
    rw [if_neg hproxy]
    split
    · exact ⟨rfl, rfl, rfl⟩
    · exact ⟨rfl, rfl, rfl⟩
  · rw [if_neg howns]
    split at h <;> rename_i hneed
    · rw [if_pos hneed]
      cases h
      exact ⟨rfl, rfl, rfl⟩
    · rw [if_neg hneed]
      exact .cons rfl (.cons rfl (grGetRequestUnlockedCalls_describes h))

theorem grGetRequestLockedCalls_describes {id : ℕ}
    (h : grProcessGetRequestLocked st id = some r) :
    CpuCall.Describes (grGetRequestLockedCalls ignoreInitialSeconds keys self st id) r := by
  unfold grProcessGetRequestLocked at h
  unfold grGetRequestLockedCalls
  cases hget : ptrArrayGet st.getStates id with
  | none =>
    rw [hget] at h
    cases h
  | some getState =>
    rw [hget] at h
    cases h
    exact grUpdateGst_describes _ _ _

theorem grPutRequestCalls_describes {request : GrPutRequest c}
    (h : grProcessPutRequest self st request = some r) :
    CpuCall.Describes (grPutRequestCalls sizes self st request) r := by
  unfold grProcessPutRequest at h
  unfold grPutRequestCalls
  dsimp only at h ⊢
  split at h <;> rename_i howns
  · rw [if_pos howns]
    split at h <;> rename_i hproxy <;> cases h
    rw [if_neg hproxy]
    exact ⟨rfl, rfl, rfl⟩
  · rw [if_neg howns]
    split at h <;> rename_i hfuture <;> cases h
    · rw [if_pos hfuture]
      exact ⟨rfl, rfl, rfl⟩
    · rw [if_neg hfuture]
      exact ⟨rfl, rfl, rfl⟩

/-- A handler that installs a value and gives its lock back. -/
theorem grPutValue_describes {key : Key} {item : GrItem c} {m : Mode} {id : ℕ}
    {e : Option (GrEvent c)} (st' : GrServerState c) :
    CpuCall.Describes (grPutValueCalls st key item ++ [.unlock m id e])
      ({ state := st', cont := .unlock m id e } : GrOutcome c) := by
  unfold grPutValueCalls
  split <;> exact ⟨rfl, rfl, rfl⟩

theorem grPutRequestLockedCalls_describes {id : ℕ}
    (h : grProcessPutRequestLocked self st id = some r) :
    CpuCall.Describes (grPutRequestLockedCalls self st id) r := by
  unfold grProcessPutRequestLocked at h
  unfold grPutRequestLockedCalls
  cases hput : ptrArrayGet st.putStates id with
  | none =>
    rw [hput] at h
    cases h
  | some putState =>
    rw [hput] at h
    dsimp only at h
    split at h <;> cases h
    exact grPutValue_describes _

theorem grPutRequestUnlockedCalls_describes {id : ℕ}
    (h : grProcessPutRequestUnlocked self st id = some r) :
    CpuCall.Describes (grPutRequestUnlockedCalls sizes self st id) r := by
  unfold grProcessPutRequestUnlocked at h
  unfold grPutRequestUnlockedCalls
  cases hput : ptrArrayGet st.putStates id with
  | none =>
    rw [hput] at h
    cases h
  | some putState =>
    rw [hput] at h
    dsimp only at h ⊢
    cases hstamp : putState.stamp with
    | none =>
      rw [hstamp] at h
      cases h
    | some stamp =>
      rw [hstamp] at h
      cases h
      dsimp only
      split
      · exact ⟨rfl, rfl, rfl⟩
      · refine ⟨?_, (lockFree_map_output _).cont_done, callNoTime_map_output _⟩
        exact congrArg (List.cons _) (callOuts_map_output _)

theorem grReplicaUpdateOutcome_describes {queue : List (GrReplicaUpdate c)}
    (source : Replica c) {x : List (GrReplicaUpdate c) × Option (GrReplicaUpdate c)}
    (h : replicaUpdateWork (grUpdateRules self) st.store queue = some x) :
    CpuCall.Describes
      (replicaUpdateWorkCalls (grUpdateRules self) st.store grReplicaUpdateLock queue)
      (grReplicaUpdateOutcome st source x) where
  outs := replicaUpdateWorkCalls_outs .mutex (fun u => grReplicaLock u.sourceReplica)
    GrEvent.replicaUpdateLocked queue
  cont := by
    refine (replicaUpdateWorkCalls_work .mutex (fun u => grReplicaLock u.sourceReplica)
      GrEvent.replicaUpdateLocked h).2.trans ?_
    rcases x with ⟨queue', _ | update⟩ <;> rfl
  noTime := (replicaUpdateWorkCalls_work .mutex (fun u => grReplicaLock u.sourceReplica)
    GrEvent.replicaUpdateLocked h).1

theorem grReplicaUpdateCalls_describes {update : GrReplicaUpdate c}
    (h : grProcessReplicaUpdate self st update = some r) :
    CpuCall.Describes (grReplicaUpdateCalls self st update) r := by
  unfold grProcessReplicaUpdate replicaUpdateEnqueue at h
  unfold grReplicaUpdateCalls
  obtain ⟨x, hx, rfl⟩ := Option.map_eq_some_iff.mp h
  split at hx <;> rename_i hempty
  · rw [if_pos hempty]
    have hwork := grReplicaUpdateOutcome_describes update.sourceReplica hx
    refine ⟨hwork.outs, hwork.cont, ?_⟩
    rw [hwork.noTime, hempty]
    exact (Bool.or_false _).symm
  · rw [if_neg hempty]
    cases hx
    refine ⟨rfl, rfl, ?_⟩
    rw [List.isEmpty_eq_false_iff.mpr hempty]
    exact (Bool.or_true _).symm

theorem grReplicaUpdateLockedCalls_describes {update : GrReplicaUpdate c}
    (h : grProcessReplicaUpdateLocked self st update = some r) :
    CpuCall.Describes (grReplicaUpdateLockedCalls st update) r := by
  unfold grProcessReplicaUpdateLocked at h
  split at h <;> cases h
  exact grPutValue_describes _

theorem grReplicaUpdateUnlockedCalls_describes {update : GrReplicaUpdate c}
    (h : grProcessReplicaUpdateUnlocked self st update = some r) :
    CpuCall.Describes (grReplicaUpdateUnlockedCalls self st update) r := by
  unfold grProcessReplicaUpdateUnlocked replicaUpdateDequeue at h
  unfold grReplicaUpdateUnlockedCalls
  obtain ⟨x, hx, rfl⟩ := Option.map_eq_some_iff.mp h
  split at hx
  · cases hx
  · rename_i enqueued queue hqueue
    rw [hqueue]
    split at hx
    · exact grReplicaUpdateOutcome_describes _ hx
    · cases hx

theorem grHeartbeatCalls_describes {heartbeat : GrHeartbeat c}
    (h : grProcessHeartbeat st heartbeat = some r) :
    CpuCall.Describes (grHeartbeatCalls st heartbeat) r := by
  cases h
  unfold grHeartbeatCalls
  split <;> exact ⟨rfl, rfl, rfl⟩

theorem grClockTickUnlockedCalls_describes {sendTime : Bool}
    (h : grProcessClockTickUnlocked self st sendTime = some r) :
    CpuCall.Describes (grClockTickUnlockedCalls sizes self st sendTime) r := by
  cases h
  refine ⟨?_, (lockFree_map_output _).cont, ?_⟩
  · exact (callOuts_append _ _).trans (congrArg (· ++ _) (callOuts_map_output _))
  · exact (callNoTime_append _ _).trans (congrArg (· || _) (callNoTime_map_output _))

theorem grClockTickCalls_describes (h : grProcessClockTick self st = some r) :
    CpuCall.Describes (grClockTickCalls sizes self st) r := by
  unfold grProcessClockTick at h
  unfold grClockTickCalls
  split at h <;> rename_i hdue
  · rw [if_pos hdue]
    cases h
    exact ⟨rfl, rfl, rfl⟩
  · rw [if_neg hdue]
    exact .cons rfl (grClockTickUnlockedCalls_describes h)

theorem grClockTickLockedCalls_describes (h : grProcessClockTickLocked self st = some r) :
    CpuCall.Describes (grClockTickLockedCalls self st) r := by
  unfold grProcessClockTickLocked at h
  unfold grClockTickLockedCalls
  split at h <;> rename_i hdue <;> cases h
  · rw [decide_eq_true hdue]
    exact ⟨rfl, rfl, rfl⟩
  · rw [decide_eq_false hdue]
    exact ⟨rfl, rfl, rfl⟩

theorem grRotxRequestCalls_describes {request : GrGetRotxRequest c}
    (h : grProcessRotxRequest self st request = some r) :
    CpuCall.Describes (grRotxRequestCalls sizes self st request) r := by
  cases h
  unfold grRotxRequestCalls
  dsimp only
  by_cases hready : request.dependencyTime ≤ st.gst
  · rw [if_pos hready]
    refine ⟨?_, rfl, rfl⟩
    simp [grBuild, grSendRotxSnapshotRequest, hready]
  · rw [if_neg hready]
    refine ⟨?_, rfl, rfl⟩
    simp [grBuild, hready]

theorem grGetSnapshotRequestLockedCalls_describes {id : ℕ}
    (h : grProcessGetSnapshotRequestLocked st id = some r) :
    CpuCall.Describes (grGetSnapshotRequestLockedCalls ignoreInitialSeconds keys self st id) r := by
  unfold grProcessGetSnapshotRequestLocked at h
  unfold grGetSnapshotRequestLockedCalls
  cases hsnapshot : ptrArrayGet st.snapshotStates id with
  | none =>
    rw [hsnapshot] at h
    cases h
  | some snapshot =>
    rw [hsnapshot] at h
    cases h
    exact grUpdateGst_describes _ _ _

theorem grGetSnapshotRequestUnlockedCalls_describes {id : ℕ}
    (h : grProcessGetSnapshotRequestUnlocked self st id = some r) :
    CpuCall.Describes (grGetSnapshotRequestUnlockedCalls sizes self st id) r := by
  unfold grProcessGetSnapshotRequestUnlocked at h
  unfold grGetSnapshotRequestUnlockedCalls
  cases hsnapshot : ptrArrayGet st.snapshotStates id with
  | none =>
    rw [hsnapshot] at h
    cases h
  | some snapshot =>
    rw [hsnapshot] at h
    cases h
    exact ⟨callOuts_map_output _, (lockFree_map_output _).cont_done, callNoTime_map_output _⟩

theorem grSliceRequestUnlockedCalls_describes {request : GrSliceRequest c}
    (h : grProcessSliceRequestUnlocked self st request = some r) :
    CpuCall.Describes (grSliceRequestUnlockedCalls sizes st request) r := by
  unfold grProcessSliceRequestUnlocked at h
  split at h <;> cases h
  exact .after_time (getValueAtCalls_timeOnly (fun _ => timeOnly_nil) _) ⟨rfl, rfl, rfl⟩

theorem grSliceRequestCalls_describes {request : GrSliceRequest c}
    (h : grProcessSliceRequest self st request = some r) :
    CpuCall.Describes (grSliceRequestCalls sizes st request) r := by
  unfold grProcessSliceRequest at h
  unfold grSliceRequestCalls
  split at h <;> rename_i hneed
  · rw [if_pos hneed]
    cases h
    exact ⟨rfl, rfl, rfl⟩
  · rw [if_neg hneed]
    exact .cons rfl (grSliceRequestUnlockedCalls_describes h)

theorem grRotxSnapshotResponseCalls_describes (sizes : Sizes (GrEvent c))
    {snapshot : GrGetSnapshotResponse c}
    (h : grProcessRotxSnapshotResponse st snapshot = some r) :
    CpuCall.Describes (grRotxSnapshotResponseCalls sizes st snapshot) r := by
  unfold grProcessRotxSnapshotResponse at h
  unfold grRotxSnapshotResponseCalls
  cases hrotx : ptrArrayGet st.rotxStates snapshot.requestId with
  | none =>
    rw [hrotx] at h
    cases h
  | some rotx =>
    rw [hrotx] at h
    cases h
    exact ⟨rfl, rfl, rfl⟩

theorem grSliceResponseUnlockedCalls_describes {slice : GrSliceResponse c}
    (h : grProcessSliceResponseUnlocked self st slice = some r) :
    CpuCall.Describes (grSliceResponseUnlockedCalls sizes self st slice) r := by
  unfold grProcessSliceResponseUnlocked at h
  unfold grSliceResponseUnlockedCalls
  cases hsnapshot : ptrArrayGet st.snapshotStates slice.snapshotId with
  | none =>
    rw [hsnapshot] at h
    cases h
  | some snapshot =>
    rw [hsnapshot] at h
    dsimp only at h ⊢
    split at h <;> rename_i hall
    · rw [if_pos hall]
      unfold grSendSnapshotResponse at h
      unfold grSendSnapshotResponseCalls
      dsimp only
      split at h <;> rename_i hself
      · rw [if_pos hself]
        have hrotx := grRotxSnapshotResponseCalls_describes sizes h
        exact .cons rfl (.cons rfl hrotx)
      · rw [if_neg hself]
        cases h
        exact ⟨rfl, rfl, rfl⟩
    · rw [if_neg hall]
      cases h
      exact ⟨rfl, rfl, rfl⟩

theorem grSliceResponseCalls_describes {slice : GrSliceResponse c}
    (h : grProcessSliceResponse self st slice = some r) :
    CpuCall.Describes (grSliceResponseCalls sizes self st slice) r := by
  unfold grProcessSliceResponse at h
  unfold grSliceResponseCalls
  split at h <;> rename_i hneed
  · rw [if_pos hneed]
    cases h
    exact ⟨rfl, rfl, rfl⟩
  · rw [if_neg hneed]
    exact .cons rfl (grSliceResponseUnlockedCalls_describes h)

/-- **The calls of every handler are those of its outcome.** -/
theorem grCalls_describes {e : GrEvent c} (h : grProcessEvent self st e = some r) :
    CpuCall.Describes (grCalls sizes ignoreInitialSeconds keys self st e) r := by
  cases e with
  | getRequest request => exact grGetRequestCalls_describes h
  | forwardGetRequestLocked request => cases h; exact grUpdateGst_describes _ _ _
  | getRequestLocked id => exact grGetRequestLockedCalls_describes h
  | getRequestUnlocked id => exact grGetRequestUnlockedCalls_describes h
  | getResponse response => cases h; exact ⟨rfl, rfl, rfl⟩
  | putRequest request => exact grPutRequestCalls_describes h
  | putRequestLocked id => exact grPutRequestLockedCalls_describes h
  | putRequestUnlocked id => exact grPutRequestUnlockedCalls_describes h
  | putResponse response => cases h; exact ⟨rfl, rfl, rfl⟩
  | replicaUpdate update => exact grReplicaUpdateCalls_describes h
  | replicaUpdateLocked update => exact grReplicaUpdateLockedCalls_describes h
  | replicaUpdateUnlocked update => exact grReplicaUpdateUnlockedCalls_describes h
  | lstFromLeaf leafLst => exact grLstFromLeafCalls_describes h
  | lstFromLeafRootLocked => cases h; exact grUpdateGst_describes _ _ _
  | lstFromLeafRootUnlocked =>
    cases h
    exact ⟨callOuts_map_output _, (lockFree_map_output _).cont_done, callNoTime_map_output _⟩
  | startGstComputation => exact grStartGstComputationCalls_describes h
  | gstFromRoot rootGst => cases h; exact ⟨rfl, rfl, rfl⟩
  | gstFromRootLocked rootGst => cases h; exact grUpdateGst_describes _ _ _
  | gstFromRootUnlocked rootGst => exact grGstFromRootUnlockedCalls_describes h
  | getSnapshotRequest request => cases h; exact ⟨rfl, rfl, rfl⟩
  | getSnapshotRequestLocked id => exact grGetSnapshotRequestLockedCalls_describes h
  | getSnapshotRequestUnlocked id => exact grGetSnapshotRequestUnlockedCalls_describes h
  | getSnapshotResponse response => cases h
  | sliceRequest request => exact grSliceRequestCalls_describes h
  | sliceRequestLocked request => cases h; exact grUpdateGst_describes _ _ _
  | sliceRequestUnlocked request => exact grSliceRequestUnlockedCalls_describes h
  | sliceResponse slice => exact grSliceResponseCalls_describes h
  | sliceResponseLocked slice => cases h; exact grUpdateGst_describes _ _ _
  | sliceResponseUnlocked slice => exact grSliceResponseUnlockedCalls_describes h
  | rotxRequest request => exact grRotxRequestCalls_describes h
  | rotxResponse response => cases h
  | clockTick => exact grClockTickCalls_describes h
  | clockTickLocked => exact grClockTickLockedCalls_describes h
  | clockTickUnlocked sendTime => exact grClockTickUnlockedCalls_describes h
  | heartbeat heartbeat => exact grHeartbeatCalls_describes h
  | heartbeatLocked heartbeat => cases h; exact ⟨rfl, rfl, rfl⟩
  | clientTick => cases h

end Describes

end CCSim
