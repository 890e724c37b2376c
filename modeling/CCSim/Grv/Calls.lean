/-
# The calls of the `grv` handlers

Every handler of `server/protocols/grv` once more, as the list of its calls (`grvCalls`), with the
same arguments as for `gr`.

The lists agree with the outcomes (`grvCalls_describes`).  One handler goes on after a lock call: the
server that forwards a GET asks for the lock under which it may update its stable vector, and then
updates it at once (`grvCalls_locksLast_iff`).
-/
import CCSim.Calls
import CCSim.Grv.Protocol

namespace CCSim

variable {c : Cluster}

abbrev GrvCall (c : Cluster) := CpuCall (ServerId c) (ClientId c) (GrvEvent c)

section Calls

variable (sizes : Sizes (GrvEvent c)) (ignoreInitialSeconds : ℚ) (keys : List Key)
  (self : ServerId c) (st : GrvServerState c)

/-- `build_struct_per_byte_time() * message->simulated_size`, for the message of an event. -/
def grvBuild (e : GrvEvent c) : GrvCall c :=
  .addTime (sizes.simulatedSize e) .buildStructPerByteTime

/-! ## 1. The store and the global stable vector -/

/-- The loop of `grv_is_value_visible`, from some replica on. -/
def grvIsValueVisibleLoop (gstVector : TimeVector c) (item : GrvItem c) :
    List (Replica c) → List (GrvCall c)
  | [] => []
  | i :: replicas =>
    .addTime 1 .isValueVisibleTime ::
      if i ≠ self.1 ∧ gstVector i < item.dependencyVector i then []
      else grvIsValueVisibleLoop gstVector item replicas

/-- `grv_is_value_visible`. -/
def grvIsValueVisibleCalls (gstVector : TimeVector c) (item : GrvItem c) : List (GrvCall c) :=
  .addTime 1 .isValueVisibleTime ::
    if item.sourceReplica = self.1 then []
    else grvIsValueVisibleLoop self gstVector item (List.finRange c.numReplicas)

/-- `is_value_visible_snapshot`, from some replica on. -/
def grvIsValueVisibleSnapshotCalls (timeVector : TimeVector c) (item : GrvItem c) :
    List (Replica c) → List (GrvCall c)
  | [] => []
  | i :: replicas =>
    .addTime 1 .isValueVisibleTime ::
      if timeVector i < item.dependencyVector i then []
      else grvIsValueVisibleSnapshotCalls timeVector item replicas

/-- `grv_get_value`. -/
def grvGetValueCalls (key : Key) : List (GrvCall c) :=
  getValueAtCalls (grvIsValueVisible self st.gstVector)
    (grvIsValueVisibleCalls self st.gstVector) (st.store key)

/-- `grv_put_value`. -/
def grvPutValueCalls (key : Key) (item : GrvItem c) : List (GrvCall c) :=
  .addTime 1 .putValueTime ::
    if (grvPutValue st key item).isNone then []
    else [.addTime (2 * c.numReplicas * sizes.tsp) .buildStructPerByteTime, .storePut key]

/-- `grv_gst_vector_need_update`, from some replica on. -/
def grvGstVectorNeedUpdateCalls (gstVector : TimeVector c) : List (Replica c) → List (GrvCall c)
  | [] => []
  | i :: replicas =>
    .addTime 1 .checkGstVectorPerReplicaTime ::
      if st.gstVector i < gstVector i then []
      else grvGstVectorNeedUpdateCalls gstVector replicas

/-- `grv_gst_vector_need_update`. -/
def grvNeedUpdateCalls (gstVector : TimeVector c) : List (GrvCall c) :=
  grvGstVectorNeedUpdateCalls st gstVector (List.finRange c.numReplicas)

/-- `grv_stats_gst_update`. -/
def grvStatsGstUpdateCalls (oldGstVector newGstVector : TimeVector c) : List (GrvCall c) :=
  if st.now < ignoreInitialSeconds then []
  else
    .saveTime :: (keys.flatMap fun key =>
      statsGstUpdateCalls (grvIsValueVisible self oldGstVector)
        (grvIsValueVisibleCalls self oldGstVector) (grvIsValueVisibleCalls self newGstVector)
        (st.store key)) ++ [.restoreTime]

/-- `grv_update_gst_vector`. -/
def grvUpdateGstVectorCalls (gstVector : TimeVector c) : List (GrvCall c) :=
  ((List.finRange c.numReplicas).flatMap fun i =>
      if st.gstVector i < gstVector i then [.addTime 1 .updateGstVectorPerUpdateTime] else []) ++
    .addTime c.numReplicas .updateGstVectorPerReplicaTime ::
      if grvGstVectorNeedUpdate st gstVector then
        grvStatsGstUpdateCalls ignoreInitialSeconds keys self st st.gstVector
          (grvUpdateGstVector st gstVector).gstVector
      else []

/-- `grv_send_lst_to_parent`. -/
def grvSendLstToParentCalls : List (GrvCall c) :=
  let leafLst : GrvEvent c := .lstFromLeaf ⟨self.2, st.minLstVector⟩
  [grvBuild sizes leafLst, .output (.toServer (self.1, parentPartition self.2) leafLst)]

/-- `grv_process_lst_from_leaf`. -/
def grvLstFromLeafCalls (leafLst : GrvLstFromLeaf c) : List (GrvCall c) :=
  let index := childPartitionIndex c leafLst.leafPartitionId
  let lstReceived := grvCountLstReceived c st.lstReceived
  let st := { st with
    minLstVector := if lstReceived = 0 then leafLst.lstVector
      else setMinVector st.minLstVector leafLst.lstVector
    lstReceived := Function.update st.lstReceived index true }
  .addTime c.numReplicas .processLstFromLeafPerReplicaTime ::
    if lstReceived = (numChildrenPartitions self.2 + uintSize - 1) % uintSize then
      let st := { st with
        lstReceived := fun _ => false
        minLstVector := setMinVector st.minLstVector st.versionVector }
      .addTime c.numReplicas .processLstFromLeafEndPerReplicaTime ::
        if self.2.val = 0 then [.lock .mutex grvLockGsv .lstFromLeafRootLocked]
        else grvSendLstToParentCalls sizes self st
    else []

/-- A locked handler that updates the vector and gives its lock back. -/
def grvUpdateUnlockCalls (gstVector : TimeVector c) (e : Option (GrvEvent c)) :
    List (GrvCall c) :=
  grvUpdateGstVectorCalls ignoreInitialSeconds keys self st gstVector ++
    [.unlock .mutex grvLockGsv e]

/-- `grv_process_lst_from_leaf_root_locked`. -/
def grvLstFromLeafRootLockedCalls : List (GrvCall c) :=
  grvUpdateUnlockCalls ignoreInitialSeconds keys self st st.minLstVector
    (some .lstFromLeafRootUnlocked)

/-- `grv_send_gst_to_children`. -/
def grvSendGstToChildrenCalls : List (GrvCall c) :=
  .addTime (sizes.size (.gstFromRoot ⟨st.gstVector⟩)) .buildStructPerByteTime ::
    (grvSendGst self ⟨st.gstVector⟩).map .output

/-- `grv_process_gst_from_root`. -/
def grvGstFromRootCalls (rootGst : GrvGstFromRoot c) : List (GrvCall c) :=
  (grvSendGst self rootGst).map .output ++ [.lock .mutex grvLockGsv (.gstFromRootLocked rootGst)]

/-- `grv_process_gst_from_root_locked`. -/
def grvGstFromRootLockedCalls (rootGst : GrvGstFromRoot c) : List (GrvCall c) :=
  grvUpdateUnlockCalls ignoreInitialSeconds keys self st rootGst.gstVector
    (some .gstFromRootUnlocked)

/-- `grv_process_gst_from_root_unlocked`. -/
def grvGstFromRootUnlockedCalls : List (GrvCall c) :=
  .allowNoTime ::
    if isLeafPartition self.2 then [.output (grvScheduleGstComputationStart c)] else []

/-- `grv_process_start_gst_computation`. -/
def grvStartGstComputationCalls : List (GrvCall c) :=
  if self.2.val = 0 then
    grvUpdateGstVectorCalls ignoreInitialSeconds keys self st st.versionVector ++
      [.output (grvScheduleGstComputationStart c)]
  else
    let leafLst : GrvEvent c := .lstFromLeaf ⟨self.2, st.versionVector⟩
    [grvBuild sizes leafLst, .output (.toServer (self.1, parentPartition self.2) leafLst)]

/-! ## 2. GET and PUT -/

/-- `grv_process_get_request_unlocked`. -/
def grvGetRequestUnlockedCalls (request : GrvGetRequest c) : List (GrvCall c) :=
  let response : GrvEvent c := .getResponse (grvGetAnswer self st request)
  grvGetValueCalls self st request.key ++
    [grvBuild sizes response,
      .output (grvSend (replyTo request.client request.proxy) response)]

/-- `grv_process_get_request`. -/
def grvGetRequestCalls (request : GrvGetRequest c) : List (GrvCall c) :=
  let keyLocation := lpidForKey self request.key
  .addTime 1 .processGetRequestPreTime ::
    if keyLocation ≠ self then
      if request.proxy ≠ none then []
      else
        let request := { request with proxy := some self }
        .output (.toServer keyLocation (.getRequest request)) ::
          (grvNeedUpdateCalls st request.gstVector ++
            ((if grvGstVectorNeedUpdate st request.gstVector then
                [.lock .mutex grvLockGsv (.forwardedGetRequestLocked request)]
              else []) ++
            -- the vector is updated without waiting for the lock
            grvUpdateGstVectorCalls ignoreInitialSeconds keys self st request.gstVector))
    else
      grvNeedUpdateCalls st request.gstVector ++
        if grvGstVectorNeedUpdate st request.gstVector then
          [.lock .mutex grvLockGsv (.getRequestLocked request)]
        else grvGetRequestUnlockedCalls sizes self st request

/-- `grv_process_forwarded_get_request_locked`. -/
def grvForwardedGetRequestLockedCalls (request : GrvGetRequest c) : List (GrvCall c) :=
  grvUpdateUnlockCalls ignoreInitialSeconds keys self st request.gstVector none

/-- `grv_process_get_request_locked`. -/
def grvGetRequestLockedCalls (request : GrvGetRequest c) : List (GrvCall c) :=
  grvUpdateUnlockCalls ignoreInitialSeconds keys self st request.gstVector
    (some (.getRequestUnlocked request))

/-- `grv_process_put_request`. -/
def grvPutRequestCalls (request : GrvPutRequest c) : List (GrvCall c) :=
  let keyLocation := lpidForKey self request.key
  .addTime 1 .processPutRequestPreTime ::
    if keyLocation ≠ self then
      if request.proxy ≠ none then []
      else [.output (.toServer keyLocation (.putRequest { request with proxy := some self }))]
    else
      let dependencyTime := maxVector request.dependencyVector
      if st.clock < dependencyTime then
        [.output (.self (dependencyTime - st.clock) (.putRequest request))]
      else [.lock .mutex grvLockVv (.putRequestLocked (ptrArrayFree st.putStates))]

/-- `grv_process_put_request_locked`. -/
def grvPutRequestLockedCalls (id : ℕ) : List (GrvCall c) :=
  match ptrArrayGet st.putStates id with
  | none => []
  | some putState =>
    grvPutValueCalls sizes st putState.key (grvPutItem self st putState) ++
      [.unlock .mutex grvLockVv (some (.putRequestUnlocked id))]

/-- `grv_replicate_value`. -/
def grvReplicateValueCalls (update : GrvReplicaUpdate c) : List (GrvCall c) :=
  grvBuild sizes (.replicaUpdate update) :: (grvReplicateValue self update).map .output

/-- `grv_process_put_request_unlocked`. -/
def grvPutRequestUnlockedCalls (id : ℕ) : List (GrvCall c) :=
  match ptrArrayGet st.putStates id with
  | none => []
  | some putState =>
    match putState.stamp with
    | none => []
    | some stamp =>
      let response : GrvEvent c := .putResponse (grvPutAnswer self putState stamp)
      grvBuild sizes response :: .output (grvSend putState.destination response) ::
        if stamp.discarded then []
        else grvReplicateValueCalls sizes self (grvPutUpdate self putState stamp)

/-! ## 3. Replication, heartbeats and clock ticks -/

/-- The request for the lock under which an update is installed. -/
def grvReplicaUpdateLock (update : GrvReplicaUpdate c) : GrvCall c :=
  .lock .mutex grvLockVv (.replicaUpdateVvLocked update)

/-- `grv_process_replica_update`. -/
def grvReplicaUpdateCalls (update : GrvReplicaUpdate c) : List (GrvCall c) :=
  if st.replicaUpdateQueues update.sourceReplica = [] then
    replicaUpdateWorkCalls (grvUpdateRules self) st.store grvReplicaUpdateLock [update]
  else [.allowNoTime]

/-- `grv_process_replica_update_vv_locked`. -/
def grvReplicaUpdateVvLockedCalls (update : GrvReplicaUpdate c) : List (GrvCall c) :=
  grvPutValueCalls sizes st update.key update.item ++
    [.unlock .mutex grvLockVv (some (.replicaUpdateVvUnlocked update))]

/-- `grv_process_replica_update_vv_unlocked`. -/
def grvReplicaUpdateVvUnlockedCalls (update : GrvReplicaUpdate c) : List (GrvCall c) :=
  replicaUpdateWorkCalls (grvUpdateRules self) st.store grvReplicaUpdateLock
    (st.replicaUpdateQueues update.sourceReplica).tail

/-- `grv_process_heartbeat`. -/
def grvHeartbeatCalls (heartbeat : GrvHeartbeat c) : List (GrvCall c) :=
  [.lock .mutex grvLockVv (.heartbeatLocked heartbeat)]

/-- `grv_process_heartbeat_locked`. -/
def grvHeartbeatLockedCalls : List (GrvCall c) :=
  [.addTime 1 .processHeartbeatTime, .unlock .mutex grvLockVv none]

/-- `grv_process_clock_tick_unlocked`. -/
def grvClockTickUnlockedCalls (sendTime : Bool) : List (GrvCall c) :=
  .addTime (sizes.size (.heartbeat ⟨self.1, if sendTime then st.clock else 0⟩))
      .buildStructPerByteTime ::
    (grvSendHeartbeat self st sendTime).map .output ++ [.output (.self c.clockInterval .clockTick)]

/-- `grv_process_clock_tick`. -/
def grvClockTickCalls : List (GrvCall c) :=
  .addTime 1 .processClockTickTime ::
    if st.versionVector self.1 + c.clockInterval ≤ st.clock then
      [.lock .mutex grvLockVv .clockTickLocked]
    else grvClockTickUnlockedCalls sizes self st false

/-- `grv_process_clock_tick_locked`. -/
def grvClockTickLockedCalls : List (GrvCall c) :=
  [.unlock .mutex grvLockVv (some (.clockTickUnlocked true))]

/-! ## 4. Read-only transactions -/

/-- `send_slice` of `grv_process_rotx_request_unlocked`. -/
def grvSendSliceCalls (request : GrvRotxRequest c) (p : Partition c) : List (GrvCall c) :=
  .addTime 1 .processRotxRequestPerPartitionTime ::
    if grvSliceKeys self request.keys p = [] then []
    else
      let slice : GrvEvent c := .sliceRequest (grvSliceRequest self st request p)
      [.addTime (sizes.size slice) .buildStructPerByteTime, .output (.toServer (self.1, p) slice)]

/-- `grv_process_rotx_request_unlocked`. -/
def grvRotxRequestUnlockedCalls (request : GrvRotxRequest c) : List (GrvCall c) :=
  .addTime (sizes.rotxState + sizes.key * request.keys.length) .buildStructPerByteTime ::
    (List.finRange c.numPartitions).flatMap (grvSendSliceCalls sizes self st request)

/-- `grv_process_rotx_request`. -/
def grvRotxRequestCalls (request : GrvRotxRequest c) : List (GrvCall c) :=
  grvNeedUpdateCalls st request.gstVector ++
    if grvGstVectorNeedUpdate st request.gstVector then
      [.lock .mutex grvLockGsv (.rotxRequestLocked request)]
    else grvRotxRequestUnlockedCalls sizes self st request

/-- `grv_process_rotx_request_locked`. -/
def grvRotxRequestLockedCalls (request : GrvRotxRequest c) : List (GrvCall c) :=
  grvUpdateUnlockCalls ignoreInitialSeconds keys self st request.gstVector
    (some (.rotxRequestUnlocked request))

/-- `grv_process_slice_request_unlocked`. -/
def grvSliceRequestUnlockedCalls (request : GrvSliceRequest c) : List (GrvCall c) :=
  let snapshotVector := grvSnapshotVector self st
  let response : GrvEvent c := .sliceResponse (grvSliceAnswer self st request)
  (request.keys.flatMap fun x =>
      getValueAtCalls (grvIsValueVisibleSnapshot snapshotVector)
        (fun item => grvIsValueVisibleSnapshotCalls snapshotVector item
          (List.finRange c.numReplicas)) (st.store x.2)) ++
    [grvBuild sizes response, .output (.toServer request.fromLpid response)]

/-- `grv_process_slice_request`. -/
def grvSliceRequestCalls (request : GrvSliceRequest c) : List (GrvCall c) :=
  .allowNoTime ::
    if st.clock < request.snapshotTime then
      [.output (.self (request.snapshotTime - st.clock) (.sliceRequest request))]
    else
      grvNeedUpdateCalls st request.gstVector ++
        if grvGstVectorNeedUpdate st request.gstVector then
          [.lock .mutex grvLockGsv (.sliceRequestLocked request)]
        else grvSliceRequestUnlockedCalls sizes self st request

/-- `grv_process_slice_request_locked`. -/
def grvSliceRequestLockedCalls (request : GrvSliceRequest c) : List (GrvCall c) :=
  grvUpdateUnlockCalls ignoreInitialSeconds keys self st request.gstVector
    (some (.sliceRequestUnlocked request))

/-- `grv_process_slice_response` and `grv_send_rotx_response`. -/
def grvSliceResponseCalls (slice : GrvSliceResponse c) : List (GrvCall c) :=
  match ptrArrayGet st.rotxStates slice.rotxId with
  | none => []
  | some rotx =>
    let rotx := grvReceiveSlice rotx slice
    .addTime slice.values.length .processSliceResponsePerValueTime ::
      if rotx.receivedValues = rotx.values.length then
        let response : GrvEvent c := .rotxResponse (grvRotxAnswer rotx)
        [grvBuild sizes response, .output (.toClient rotx.client response)]
      else []

/-! ## 5. The dispatcher -/

/-- `grv_process_event`. -/
def grvCalls : GrvEvent c → List (GrvCall c)
  | .getRequest request => grvGetRequestCalls sizes ignoreInitialSeconds keys self st request
  | .forwardedGetRequestLocked request =>
    grvForwardedGetRequestLockedCalls ignoreInitialSeconds keys self st request
  | .getRequestLocked request =>
    grvGetRequestLockedCalls ignoreInitialSeconds keys self st request
  | .getRequestUnlocked request => grvGetRequestUnlockedCalls sizes self st request
  | .getResponse response => [.output (.toClient response.client (.getResponse response))]
  | .putRequest request => grvPutRequestCalls self st request
  | .putRequestLocked id => grvPutRequestLockedCalls sizes self st id
  | .putRequestUnlocked id => grvPutRequestUnlockedCalls sizes self st id
  | .putResponse response => [.output (.toClient response.client (.putResponse response))]
  | .replicaUpdate update => grvReplicaUpdateCalls self st update
  | .replicaUpdateVvLocked update => grvReplicaUpdateVvLockedCalls sizes st update
  | .replicaUpdateVvUnlocked update => grvReplicaUpdateVvUnlockedCalls self st update
  | .lstFromLeaf leafLst => grvLstFromLeafCalls sizes self st leafLst
  | .lstFromLeafRootLocked => grvLstFromLeafRootLockedCalls ignoreInitialSeconds keys self st
  | .lstFromLeafRootUnlocked => grvSendGstToChildrenCalls sizes self st
  | .startGstComputation => grvStartGstComputationCalls sizes ignoreInitialSeconds keys self st
  | .gstFromRoot rootGst => grvGstFromRootCalls self rootGst
  | .gstFromRootLocked rootGst =>
    grvGstFromRootLockedCalls ignoreInitialSeconds keys self st rootGst
  | .gstFromRootUnlocked => grvGstFromRootUnlockedCalls self
  | .sliceRequest request => grvSliceRequestCalls sizes self st request
  | .sliceRequestLocked request =>
    grvSliceRequestLockedCalls ignoreInitialSeconds keys self st request
  | .sliceRequestUnlocked request => grvSliceRequestUnlockedCalls sizes self st request
  | .sliceResponse slice => grvSliceResponseCalls sizes st slice
  | .rotxRequest request => grvRotxRequestCalls sizes self st request
  | .rotxRequestLocked request =>
    grvRotxRequestLockedCalls ignoreInitialSeconds keys self st request
  | .rotxRequestUnlocked request => grvRotxRequestUnlockedCalls sizes self st request
  | .clockTick => grvClockTickCalls sizes self st
  | .clockTickLocked => grvClockTickLockedCalls
  | .clockTickUnlocked sendTime => grvClockTickUnlockedCalls sizes self st sendTime
  | .heartbeat heartbeat => grvHeartbeatCalls heartbeat
  | .heartbeatLocked _ => grvHeartbeatLockedCalls
  | .rotxResponse _ => []
  | .clientTick => []

end Calls

/-! ## 6. The lists and the outcomes -/

section Describes

variable {sizes : Sizes (GrvEvent c)} {ignoreInitialSeconds : ℚ} {keys : List Key}
  {self : ServerId c} {st : GrvServerState c}

theorem grvIsValueVisibleCalls_timeOnly (gstVector : TimeVector c) (item : GrvItem c) :
    TimeOnly (grvIsValueVisibleCalls self gstVector item) := by
  refine .cons rfl ?_
  split
  · exact timeOnly_nil
  · generalize List.finRange c.numReplicas = replicas
    induction replicas with
    | nil => exact timeOnly_nil
    | cons i replicas ih =>
      refine .cons rfl ?_
      split
      · exact timeOnly_nil
      · exact ih

theorem grvIsValueVisibleSnapshotCalls_timeOnly (timeVector : TimeVector c) (item : GrvItem c)
    (replicas : List (Replica c)) :
    TimeOnly (grvIsValueVisibleSnapshotCalls timeVector item replicas) := by
  induction replicas with
  | nil => exact timeOnly_nil
  | cons i replicas ih =>
    refine .cons rfl ?_
    split
    · exact timeOnly_nil
    · exact ih

theorem grvGetValueCalls_timeOnly (key : Key) : TimeOnly (grvGetValueCalls self st key) :=
  getValueAtCalls_timeOnly (grvIsValueVisibleCalls_timeOnly _) _

theorem grvNeedUpdateCalls_timeOnly (gstVector : TimeVector c) :
    TimeOnly (grvNeedUpdateCalls st gstVector) := by
  unfold grvNeedUpdateCalls
  generalize List.finRange c.numReplicas = replicas
  induction replicas with
  | nil => exact timeOnly_nil
  | cons i replicas ih =>
    refine .cons rfl ?_
    split
    · exact timeOnly_nil
    · exact ih

theorem grvUpdateGstVectorCalls_timeOnly (gstVector : TimeVector c) :
    TimeOnly (grvUpdateGstVectorCalls ignoreInitialSeconds keys self st gstVector) := by
  refine .append (.flatMap fun i _ => ?_) (.cons rfl ?_)
  · split
    · exact .cons rfl timeOnly_nil
    · exact timeOnly_nil
  · split
    · unfold grvStatsGstUpdateCalls
      split
      · exact timeOnly_nil
      · refine .cons rfl (.append (.flatMap fun key _ => ?_) (.cons rfl timeOnly_nil))
        exact forall_mem_statsGstUpdateCalls (grvIsValueVisibleCalls_timeOnly _)
          (grvIsValueVisibleCalls_timeOnly _) _
    · exact timeOnly_nil

theorem grvPutValueCalls_lockFree (key : Key) (item : GrvItem c) :
    LockFree (grvPutValueCalls sizes st key item) := by
  refine .cons rfl ?_
  split
  · exact lockFree_nil
  · exact .cons rfl (.cons rfl lockFree_nil)

theorem grvSendSliceCalls_lockFree (request : GrvRotxRequest c) (p : Partition c) :
    LockFree (grvSendSliceCalls sizes self st request p) := by
  refine .cons rfl ?_
  split
  · exact lockFree_nil
  · exact .cons rfl (.cons rfl lockFree_nil)

/-! ### Lock calls -/

theorem grvUpdateUnlockCalls_locksLast (gstVector : TimeVector c) (e : Option (GrvEvent c)) :
    LocksLast (grvUpdateUnlockCalls ignoreInitialSeconds keys self st gstVector e) :=
  .append (grvUpdateGstVectorCalls_timeOnly _).lockFree (locksLast_singleton _)

theorem grvLstFromLeafCalls_locksLast (leafLst : GrvLstFromLeaf c) :
    LocksLast (grvLstFromLeafCalls sizes self st leafLst) := by
  refine .cons rfl ?_
  split
  · refine .cons rfl ?_
    split
    · exact locksLast_singleton _
    · exact .cons rfl (locksLast_singleton _)
  · exact locksLast_nil

theorem grvGstFromRootUnlockedCalls_locksLast :
    LocksLast (grvGstFromRootUnlockedCalls self) := by
  refine .cons rfl ?_
  split
  · exact locksLast_singleton _
  · exact locksLast_nil

theorem grvStartGstComputationCalls_locksLast :
    LocksLast (grvStartGstComputationCalls sizes ignoreInitialSeconds keys self st) := by
  unfold grvStartGstComputationCalls
  split
  · exact .append (grvUpdateGstVectorCalls_timeOnly _).lockFree (locksLast_singleton _)
  · exact .cons rfl (locksLast_singleton _)

theorem grvGetRequestUnlockedCalls_locksLast (request : GrvGetRequest c) :
    LocksLast (grvGetRequestUnlockedCalls sizes self st request) :=
  .append (grvGetValueCalls_timeOnly _).lockFree (.cons rfl (locksLast_singleton _))

/-- The request of a client for a key that another server holds, with a vector that is newer in
some entry. -/
def GrvForwardsNewer (self : ServerId c) (st : GrvServerState c) (request : GrvGetRequest c) :
    Prop :=
  lpidForKey self request.key ≠ self ∧ request.proxy = none ∧
    grvGstVectorNeedUpdate st request.gstVector = true

instance (self : ServerId c) (st : GrvServerState c) (request : GrvGetRequest c) :
    Decidable (GrvForwardsNewer self st request) := inferInstanceAs (Decidable (_ ∧ _ ∧ _))

theorem grvGetRequestCalls_locksLast_iff (request : GrvGetRequest c) :
    LocksLast (grvGetRequestCalls sizes ignoreInitialSeconds keys self st request) ↔
      ¬GrvForwardsNewer self st request := by
  unfold grvGetRequestCalls
  dsimp only
  by_cases howns : lpidForKey self request.key ≠ self
  · rw [if_pos howns]
    by_cases hproxy : request.proxy ≠ none
    · rw [if_pos hproxy]
      exact iff_of_true (locksLast_singleton _) fun h => hproxy h.2.1
    · rw [if_neg hproxy]
      by_cases hneed : grvGstVectorNeedUpdate st request.gstVector = true
      · rw [if_pos hneed]
        refine iff_of_false ?_ (not_not.mpr ⟨howns, not_not.mp hproxy, hneed⟩)
        -- the time for the update of the vector is used after the request for the lock
        rw [← List.cons_append, ← List.cons_append]
        refine not_locksLast rfl ⟨.addTime c.numReplicas .updateGstVectorPerReplicaTime, ?_, rfl⟩
        exact List.mem_append_right _ (List.mem_append_right _ List.mem_cons_self)
      · rw [if_neg hneed]
        refine iff_of_true (.cons rfl (.cons rfl ?_)) fun h => hneed h.2.2
        exact .append (grvNeedUpdateCalls_timeOnly _).lockFree
          (grvUpdateGstVectorCalls_timeOnly _).lockFree.locksLast
  · rw [if_neg howns]
    refine iff_of_true (.cons rfl ?_) fun h => howns h.1
    refine .append (grvNeedUpdateCalls_timeOnly _).lockFree ?_
    split
    · exact locksLast_singleton _
    · exact grvGetRequestUnlockedCalls_locksLast _

theorem grvPutRequestCalls_locksLast (request : GrvPutRequest c) :
    LocksLast (grvPutRequestCalls self st request) := by
  refine .cons rfl ?_
  split
  · split
    · exact locksLast_nil
    · exact locksLast_singleton _
  · dsimp only
    split <;> exact locksLast_singleton _

theorem grvPutRequestLockedCalls_locksLast (id : ℕ) :
    LocksLast (grvPutRequestLockedCalls sizes self st id) := by
  unfold grvPutRequestLockedCalls
  split
  · exact locksLast_nil
  · exact .append (grvPutValueCalls_lockFree _ _) (locksLast_singleton _)

theorem grvPutRequestUnlockedCalls_locksLast (id : ℕ) :
    LocksLast (grvPutRequestUnlockedCalls sizes self st id) := by
  unfold grvPutRequestUnlockedCalls
  split
  · exact locksLast_nil
  · split
    · exact locksLast_nil
    · refine .cons rfl (.cons rfl ?_)
      split
      · exact locksLast_nil
      · exact .cons rfl (lockFree_map_output _).locksLast

theorem grvReplicaUpdateCalls_locksLast (update : GrvReplicaUpdate c) :
    LocksLast (grvReplicaUpdateCalls self st update) := by
  unfold grvReplicaUpdateCalls
  split
  · exact replicaUpdateWorkCalls_locksLast _
  · exact locksLast_singleton _

theorem grvClockTickUnlockedCalls_locksLast (sendTime : Bool) :
    LocksLast (grvClockTickUnlockedCalls sizes self st sendTime) :=
  .cons rfl (.append (lockFree_map_output _) (locksLast_singleton _))

theorem grvClockTickCalls_locksLast : LocksLast (grvClockTickCalls sizes self st) := by
  refine .cons rfl ?_
  split
  · exact locksLast_singleton _
  · exact grvClockTickUnlockedCalls_locksLast _

theorem grvRotxRequestUnlockedCalls_locksLast (request : GrvRotxRequest c) :
    LocksLast (grvRotxRequestUnlockedCalls sizes self st request) :=
  .cons rfl (LockFree.flatMap fun p _ => grvSendSliceCalls_lockFree request p).locksLast

theorem grvRotxRequestCalls_locksLast (request : GrvRotxRequest c) :
    LocksLast (grvRotxRequestCalls sizes self st request) := by
  refine .append (grvNeedUpdateCalls_timeOnly _).lockFree ?_
  split
  · exact locksLast_singleton _
  · exact grvRotxRequestUnlockedCalls_locksLast _

theorem grvSliceValues_timeOnly (request : GrvSliceRequest c) :
    TimeOnly (request.keys.flatMap fun x =>
      getValueAtCalls (S := ServerId c) (K := ClientId c) (E := GrvEvent c)
        (grvIsValueVisibleSnapshot (grvSnapshotVector self st))
        (fun item => grvIsValueVisibleSnapshotCalls (grvSnapshotVector self st) item
          (List.finRange c.numReplicas)) (st.store x.2)) :=
  .flatMap fun _ _ => getValueAtCalls_timeOnly
    (fun item => grvIsValueVisibleSnapshotCalls_timeOnly _ item _) _

theorem grvSliceRequestUnlockedCalls_locksLast (request : GrvSliceRequest c) :
    LocksLast (grvSliceRequestUnlockedCalls sizes self st request) :=
  .append (grvSliceValues_timeOnly request).lockFree (.cons rfl (locksLast_singleton _))

theorem grvSliceRequestCalls_locksLast (request : GrvSliceRequest c) :
    LocksLast (grvSliceRequestCalls sizes self st request) := by
  refine .cons rfl ?_
  split
  · exact locksLast_singleton _
  · refine .append (grvNeedUpdateCalls_timeOnly _).lockFree ?_
    split
    · exact locksLast_singleton _
    · exact grvSliceRequestUnlockedCalls_locksLast _

theorem grvSliceResponseCalls_locksLast (slice : GrvSliceResponse c) :
    LocksLast (grvSliceResponseCalls sizes st slice) := by
  unfold grvSliceResponseCalls
  split
  · exact locksLast_nil
  · refine .cons rfl ?_
    split
    · exact .cons rfl (locksLast_singleton _)
    · exact locksLast_nil

/-- The events in which `grv` uses CPU time after it asked for a lock. -/
def GrvGoesOn (self : ServerId c) (st : GrvServerState c) : GrvEvent c → Prop
  | .getRequest request => GrvForwardsNewer self st request
  | _ => False

/-- **Lock calls are tail calls in `grv`, but for the forwarding of a GET with a newer vector.** -/
theorem grvCalls_locksLast_iff (e : GrvEvent c) :
    LocksLast (grvCalls sizes ignoreInitialSeconds keys self st e) ↔ ¬GrvGoesOn self st e := by
  cases e with
  | getRequest request => exact grvGetRequestCalls_locksLast_iff request
  | forwardedGetRequestLocked request =>
    exact iff_of_true (grvUpdateUnlockCalls_locksLast _ _) id
  | getRequestLocked request => exact iff_of_true (grvUpdateUnlockCalls_locksLast _ _) id
  | getRequestUnlocked request =>
    exact iff_of_true (grvGetRequestUnlockedCalls_locksLast request) id
  | getResponse response => exact iff_of_true (locksLast_singleton _) id
  | putRequest request => exact iff_of_true (grvPutRequestCalls_locksLast request) id
  | putRequestLocked id' => exact iff_of_true (grvPutRequestLockedCalls_locksLast id') id
  | putRequestUnlocked id' => exact iff_of_true (grvPutRequestUnlockedCalls_locksLast id') id
  | putResponse response => exact iff_of_true (locksLast_singleton _) id
  | replicaUpdate update => exact iff_of_true (grvReplicaUpdateCalls_locksLast update) id
  | replicaUpdateVvLocked update =>
    exact iff_of_true (.append (grvPutValueCalls_lockFree _ _) (locksLast_singleton _)) id
  | replicaUpdateVvUnlocked update => exact iff_of_true (replicaUpdateWorkCalls_locksLast _) id
  | lstFromLeaf leafLst => exact iff_of_true (grvLstFromLeafCalls_locksLast leafLst) id
  | lstFromLeafRootLocked => exact iff_of_true (grvUpdateUnlockCalls_locksLast _ _) id
  | lstFromLeafRootUnlocked => exact iff_of_true (.cons rfl (lockFree_map_output _).locksLast) id
  | startGstComputation => exact iff_of_true grvStartGstComputationCalls_locksLast id
  | gstFromRoot rootGst =>
    exact iff_of_true (.append (lockFree_map_output _) (locksLast_singleton _)) id
  | gstFromRootLocked rootGst => exact iff_of_true (grvUpdateUnlockCalls_locksLast _ _) id
  | gstFromRootUnlocked => exact iff_of_true grvGstFromRootUnlockedCalls_locksLast id
  | sliceRequest request => exact iff_of_true (grvSliceRequestCalls_locksLast request) id
  | sliceRequestLocked request => exact iff_of_true (grvUpdateUnlockCalls_locksLast _ _) id
  | sliceRequestUnlocked request =>
    exact iff_of_true (grvSliceRequestUnlockedCalls_locksLast request) id
  | sliceResponse slice => exact iff_of_true (grvSliceResponseCalls_locksLast slice) id
  | rotxRequest request => exact iff_of_true (grvRotxRequestCalls_locksLast request) id
  | rotxRequestLocked request => exact iff_of_true (grvUpdateUnlockCalls_locksLast _ _) id
  | rotxRequestUnlocked request =>
    exact iff_of_true (grvRotxRequestUnlockedCalls_locksLast request) id
  | rotxResponse response => exact iff_of_true locksLast_nil id
  | clockTick => exact iff_of_true grvClockTickCalls_locksLast id
  | clockTickLocked => exact iff_of_true (locksLast_singleton _) id
  | clockTickUnlocked sendTime =>
    exact iff_of_true (grvClockTickUnlockedCalls_locksLast sendTime) id
  | heartbeat heartbeat => exact iff_of_true (locksLast_singleton _) id
  | heartbeatLocked heartbeat => exact iff_of_true (.cons rfl (locksLast_singleton _)) id
  | clientTick => exact iff_of_true locksLast_nil id

/-! ### Outcomes -/

variable {r : GrvOutcome c}

/-- A handler that updates the vector and gives its lock back. -/
theorem grvUpdateUnlockCalls_describes (gstVector : TimeVector c) (e : Option (GrvEvent c))
    (st' : GrvServerState c) :
    CpuCall.Describes (grvUpdateUnlockCalls ignoreInitialSeconds keys self st gstVector e)
      ({ state := st', cont := .unlock .mutex grvLockGsv e } : GrvOutcome c) :=
  .after_time (grvUpdateGstVectorCalls_timeOnly _) ⟨rfl, rfl, rfl⟩

theorem grvLstFromLeafCalls_describes {leafLst : GrvLstFromLeaf c}
    (h : grvProcessLstFromLeaf self st leafLst = some r) :
    CpuCall.Describes (grvLstFromLeafCalls sizes self st leafLst) r := by
  unfold grvProcessLstFromLeaf at h
  unfold grvLstFromLeafCalls
  dsimp only at h ⊢
  split at h
  · cases h
  · split at h <;> rename_i hall
    · rw [if_pos hall]
      split at h <;> rename_i hroot
      · rw [if_pos hroot]
        cases h
        exact ⟨rfl, rfl, rfl⟩
      · rw [if_neg hroot]
        unfold grvSendLstToParent at h
        split at h <;> cases h
        exact ⟨rfl, rfl, rfl⟩
    · rw [if_neg hall]
      cases h
      exact ⟨rfl, rfl, rfl⟩

theorem grvGstFromRootCalls_describes {rootGst : GrvGstFromRoot c}
    (h : grvProcessGstFromRoot self st rootGst = some r) :
    CpuCall.Describes (grvGstFromRootCalls self rootGst) r := by
  cases h
  refine ⟨?_, (lockFree_map_output _).cont, ?_⟩
  · rw [grvGstFromRootCalls, callOuts_append, callOuts_map_output]
    exact List.append_nil _
  · exact (callNoTime_append _ _).trans (congrArg (· || _) (callNoTime_map_output _))

theorem grvGstFromRootUnlockedCalls_describes
    (h : grvProcessGstFromRootUnlocked self st = some r) :
    CpuCall.Describes (grvGstFromRootUnlockedCalls self) r := by
  cases h
  unfold grvGstFromRootUnlockedCalls
  split <;> exact ⟨rfl, rfl, rfl⟩

theorem grvStartGstComputationCalls_describes
    (h : grvProcessStartGstComputation self st = some r) :
    CpuCall.Describes (grvStartGstComputationCalls sizes ignoreInitialSeconds keys self st) r := by
  unfold grvProcessStartGstComputation at h
  unfold grvStartGstComputationCalls
  split at h
  · split at h <;> rename_i hroot <;> cases h
    · rw [if_pos hroot]
      exact .after_time (grvUpdateGstVectorCalls_timeOnly _) ⟨rfl, rfl, rfl⟩
    · rw [if_neg hroot]
      exact ⟨rfl, rfl, rfl⟩
  · cases h

theorem grvGetRequestUnlockedCalls_describes {request : GrvGetRequest c}
    (h : grvProcessGetRequestUnlocked self st request = some r) :
    CpuCall.Describes (grvGetRequestUnlockedCalls sizes self st request) r := by
  unfold grvProcessGetRequestUnlocked at h
  split at h <;> cases h
  exact .after_time (grvGetValueCalls_timeOnly _) ⟨rfl, rfl, rfl⟩

theorem grvGetRequestCalls_describes {request : GrvGetRequest c}
    (h : grvProcessGetRequest self st request = some r) :
    CpuCall.Describes (grvGetRequestCalls sizes ignoreInitialSeconds keys self st request) r := by
  unfold grvProcessGetRequest at h
  unfold grvGetRequestCalls
  dsimp only at h ⊢
  split at h <;> rename_i howns
  · rw [if_pos howns]
    split at h <;> rename_i hproxy <;> cases h
    rw [if_neg hproxy]
    have hneed : TimeOnly (grvNeedUpdateCalls st request.gstVector) :=
      grvNeedUpdateCalls_timeOnly _
    have hupdate : TimeOnly (grvUpdateGstVectorCalls ignoreInitialSeconds keys self st
      request.gstVector) := grvUpdateGstVectorCalls_timeOnly _
    split
    · refine ⟨?_, hneed.lockFree.cont, ?_⟩
      · simp [hneed.outs, hupdate.outs]
      · simp [hneed.noTime, hupdate.noTime]
    · refine ⟨?_, hneed.lockFree.cont.trans hupdate.lockFree.cont_done, ?_⟩
      · simp [hneed.outs, hupdate.outs]
      · simp [hneed.noTime, hupdate.noTime]
  · rw [if_neg howns]
    split at h <;> rename_i hneed
    · rw [if_pos hneed]
      cases h
      exact .after_time (.cons rfl (grvNeedUpdateCalls_timeOnly _)) ⟨rfl, rfl, rfl⟩
    · rw [if_neg hneed]
      exact .after_time (.cons rfl (grvNeedUpdateCalls_timeOnly _))
        (grvGetRequestUnlockedCalls_describes h)

theorem grvPutRequestCalls_describes {request : GrvPutRequest c}
    (h : grvProcessPutRequest self st request = some r) :
    CpuCall.Describes (grvPutRequestCalls self st request) r := by
  unfold grvProcessPutRequest at h
  unfold grvPutRequestCalls
  dsimp only at h ⊢
  split at h <;> rename_i howns
  · rw [if_pos howns]
    split at h <;> rename_i hproxy <;> cases h
    rw [if_neg hproxy]
    exact ⟨rfl, rfl, rfl⟩
  · rw [if_neg howns]
    split at h <;> rename_i hfuture <;> cases h
    · rw [if_pos hfuture]
      exact ⟨rfl, rfl, rfl⟩
    · rw [if_neg hfuture]
      exact ⟨rfl, rfl, rfl⟩

/-- A handler that installs a value and gives its lock back. -/
theorem grvPutValue_describes {key : Key} {item : GrvItem c} {m : Mode} {id : ℕ}
    {e : Option (GrvEvent c)} (st' : GrvServerState c) :
    CpuCall.Describes (grvPutValueCalls sizes st key item ++ [.unlock m id e])
      ({ state := st', cont := .unlock m id e } : GrvOutcome c) := by
  unfold grvPutValueCalls
  split <;> exact ⟨rfl, rfl, rfl⟩

theorem grvPutRequestLockedCalls_describes {id : ℕ}
    (h : grvProcessPutRequestLocked self st id = some r) :
    CpuCall.Describes (grvPutRequestLockedCalls sizes self st id) r := by
  unfold grvProcessPutRequestLocked at h
  unfold grvPutRequestLockedCalls
  cases hput : ptrArrayGet st.putStates id with
  | none =>
    rw [hput] at h
    cases h
  | some putState =>
    rw [hput] at h
    dsimp only at h
    split at h <;> cases h
    exact grvPutValue_describes _

theorem grvPutRequestUnlockedCalls_describes {id : ℕ}
    (h : grvProcessPutRequestUnlocked self st id = some r) :
    CpuCall.Describes (grvPutRequestUnlockedCalls sizes self st id) r := by
  unfold grvProcessPutRequestUnlocked at h
  unfold grvPutRequestUnlockedCalls
  cases hput : ptrArrayGet st.putStates id with
  | none =>
    rw [hput] at h
    cases h
  | some putState =>
    rw [hput] at h
    dsimp only at h ⊢
    cases hstamp : putState.stamp with
    | none =>
      rw [hstamp] at h
      cases h
    | some stamp =>
      rw [hstamp] at h
      cases h
      dsimp only
      split
      · exact ⟨rfl, rfl, rfl⟩
      · refine ⟨?_, (lockFree_map_output _).cont_done, callNoTime_map_output _⟩
        exact congrArg (List.cons _) (callOuts_map_output _)

theorem grvReplicaUpdateOutcome_describes {queue : List (GrvReplicaUpdate c)}
    (source : Replica c) {x : List (GrvReplicaUpdate c) × Option (GrvReplicaUpdate c)}
    (h : replicaUpdateWork (grvUpdateRules self) st.store queue = some x) :
    CpuCall.Describes
      (replicaUpdateWorkCalls (grvUpdateRules self) st.store grvReplicaUpdateLock queue)
      (grvReplicaUpdateOutcome st source x) where
  outs := replicaUpdateWorkCalls_outs .mutex (fun _ => grvLockVv) GrvEvent.replicaUpdateVvLocked
    queue
  cont := by
    refine (replicaUpdateWorkCalls_work .mutex (fun _ => grvLockVv)
      GrvEvent.replicaUpdateVvLocked h).2.trans ?_
    rcases x with ⟨queue', _ | update⟩ <;> rfl
  noTime := (replicaUpdateWorkCalls_work .mutex (fun _ => grvLockVv)
    GrvEvent.replicaUpdateVvLocked h).1

theorem grvReplicaUpdateCalls_describes {update : GrvReplicaUpdate c}
    (h : grvProcessReplicaUpdate self st update = some r) :
    CpuCall.Describes (grvReplicaUpdateCalls self st update) r := by
  unfold grvProcessReplicaUpdate replicaUpdateEnqueue at h
  unfold grvReplicaUpdateCalls
  obtain ⟨x, hx, rfl⟩ := Option.map_eq_some_iff.mp h
  split at hx <;> rename_i hempty
  · rw [if_pos hempty]
    have hwork := grvReplicaUpdateOutcome_describes update.sourceReplica hx
    refine ⟨hwork.outs, hwork.cont, ?_⟩
    rw [hwork.noTime, hempty]
    exact (Bool.or_false _).symm
  · rw [if_neg hempty]
    cases hx
    refine ⟨rfl, rfl, ?_⟩
    rw [List.isEmpty_eq_false_iff.mpr hempty]
    exact (Bool.or_true _).symm

theorem grvReplicaUpdateVvLockedCalls_describes {update : GrvReplicaUpdate c}
    (h : grvProcessReplicaUpdateVvLocked self st update = some r) :
    CpuCall.Describes (grvReplicaUpdateVvLockedCalls sizes st update) r := by
  unfold grvProcessReplicaUpdateVvLocked at h
  split at h <;> cases h
  exact grvPutValue_describes _

theorem grvReplicaUpdateVvUnlockedCalls_describes {update : GrvReplicaUpdate c}
    (h : grvProcessReplicaUpdateVvUnlocked self st update = some r) :
    CpuCall.Describes (grvReplicaUpdateVvUnlockedCalls self st update) r := by
  unfold grvProcessReplicaUpdateVvUnlocked replicaUpdateDequeue at h
  unfold grvReplicaUpdateVvUnlockedCalls
  obtain ⟨x, hx, rfl⟩ := Option.map_eq_some_iff.mp h
  split at hx
  · cases hx
  · rename_i enqueued queue hqueue
    rw [hqueue]
    split at hx
    · exact grvReplicaUpdateOutcome_describes _ hx
    · cases hx

theorem grvClockTickUnlockedCalls_describes {sendTime : Bool}
    (h : grvProcessClockTickUnlocked self st sendTime = some r) :
    CpuCall.Describes (grvClockTickUnlockedCalls sizes self st sendTime) r := by
  cases h
  refine ⟨?_, (lockFree_map_output _).cont, ?_⟩
  · exact (callOuts_append _ _).trans (congrArg (· ++ _) (callOuts_map_output _))
  · exact (callNoTime_append _ _).trans (congrArg (· || _) (callNoTime_map_output _))

theorem grvClockTickCalls_describes (h : grvProcessClockTick self st = some r) :
    CpuCall.Describes (grvClockTickCalls sizes self st) r := by
  unfold grvProcessClockTick at h
  unfold grvClockTickCalls
  split at h <;> rename_i hdue
  · rw [if_pos hdue]
    cases h
    exact ⟨rfl, rfl, rfl⟩
  · rw [if_neg hdue]
    exact .cons rfl (grvClockTickUnlockedCalls_describes h)

/-- The slices of a transaction are requested in the order of the partitions. -/
theorem grvSendSlicesCalls_describes (sizes : Sizes (GrvEvent c)) (self : ServerId c)
    (st : GrvServerState c) (request : GrvRotxRequest c) (ps : List (Partition c)) :
    callOuts (ps.flatMap (grvSendSliceCalls sizes self st request)) =
        ps.filterMap (fun p => if grvSliceKeys self request.keys p = [] then none
          else some (.toServer (self.1, p) (.sliceRequest (grvSliceRequest self st request p)))) ∧
      callNoTime (ps.flatMap (grvSendSliceCalls sizes self st request)) = false := by
  induction ps with
  | nil => exact ⟨rfl, rfl⟩
  | cons p ps ih =>
    rw [List.flatMap_cons, callOuts_append, callNoTime_append, ih.1, ih.2, List.filterMap_cons]
    unfold grvSendSliceCalls
    split <;> exact ⟨rfl, rfl⟩

theorem grvRotxRequestUnlockedCalls_describes {request : GrvRotxRequest c}
    (h : grvProcessRotxRequestUnlocked self st request = some r) :
    CpuCall.Describes (grvRotxRequestUnlockedCalls sizes self st request) r := by
  cases h
  have hsend := grvSendSlicesCalls_describes sizes self st request (List.finRange c.numPartitions)
  exact ⟨hsend.1, (LockFree.flatMap fun p _ =>
    grvSendSliceCalls_lockFree request p).cont_done, hsend.2⟩

theorem grvRotxRequestCalls_describes {request : GrvRotxRequest c}
    (h : grvProcessRotxRequest self st request = some r) :
    CpuCall.Describes (grvRotxRequestCalls sizes self st request) r := by
  unfold grvProcessRotxRequest at h
  refine .after_time (grvNeedUpdateCalls_timeOnly _) ?_
  split at h <;> rename_i hneed
  · rw [if_pos hneed]
    cases h
    exact ⟨rfl, rfl, rfl⟩
  · rw [if_neg hneed]
    exact grvRotxRequestUnlockedCalls_describes h

theorem grvSliceRequestUnlockedCalls_describes {request : GrvSliceRequest c}
    (h : grvProcessSliceRequestUnlocked self st request = some r) :
    CpuCall.Describes (grvSliceRequestUnlockedCalls sizes self st request) r := by
  unfold grvProcessSliceRequestUnlocked at h
  split at h <;> cases h
  exact .after_time (grvSliceValues_timeOnly request) ⟨rfl, rfl, rfl⟩

theorem grvSliceRequestCalls_describes {request : GrvSliceRequest c}
    (h : grvProcessSliceRequest self st request = some r) :
    CpuCall.Describes (grvSliceRequestCalls sizes self st request) r := by
  unfold grvProcessSliceRequest at h
  unfold grvSliceRequestCalls
  split at h <;> rename_i hfuture
  · rw [if_pos hfuture]
    cases h
    exact ⟨rfl, rfl, rfl⟩
  · rw [if_neg hfuture]
    have htime : TimeOnly (grvNeedUpdateCalls st request.gstVector) :=
      grvNeedUpdateCalls_timeOnly _
    split at h <;> rename_i hneed
    · rw [if_pos hneed]
      cases h
      refine ⟨?_, htime.lockFree.cont, rfl⟩
      exact (callOuts_append _ _).trans (congrArg (· ++ _) htime.outs)
    · rw [if_neg hneed]
      obtain ⟨r', hr', rfl⟩ := Option.map_eq_some_iff.mp h
      have hrest : CpuCall.Describes (grvNeedUpdateCalls st request.gstVector ++
          grvSliceRequestUnlockedCalls sizes self st request) r' :=
        .after_time htime (grvSliceRequestUnlockedCalls_describes hr')
      exact ⟨hrest.outs, hrest.cont, rfl⟩

theorem grvSliceResponseCalls_describes {slice : GrvSliceResponse c}
    (h : grvProcessSliceResponse st slice = some r) :
    CpuCall.Describes (grvSliceResponseCalls sizes st slice) r := by
  unfold grvProcessSliceResponse at h
  unfold grvSliceResponseCalls
  cases hrotx : ptrArrayGet st.rotxStates slice.rotxId with
  | none =>
    rw [hrotx] at h
    cases h
  | some rotx =>
    rw [hrotx] at h
    dsimp only at h ⊢
    split at h <;> rename_i hall <;> cases h
    · rw [if_pos hall]
      exact ⟨rfl, rfl, rfl⟩
    · rw [if_neg hall]
      exact ⟨rfl, rfl, rfl⟩

/-- **The calls of every handler are those of its outcome.** -/
theorem grvCalls_describes {e : GrvEvent c} (h : grvProcessEvent self st e = some r) :
    CpuCall.Describes (grvCalls sizes ignoreInitialSeconds keys self st e) r := by
  cases e with
  | getRequest request => exact grvGetRequestCalls_describes h
  | forwardedGetRequestLocked request => cases h; exact grvUpdateUnlockCalls_describes _ _ _
  | getRequestLocked request => cases h; exact grvUpdateUnlockCalls_describes _ _ _
  | getRequestUnlocked request => exact grvGetRequestUnlockedCalls_describes h
  | getResponse response => cases h; exact ⟨rfl, rfl, rfl⟩
  | putRequest request => exact grvPutRequestCalls_describes h
  | putRequestLocked id => exact grvPutRequestLockedCalls_describes h
  | putRequestUnlocked id => exact grvPutRequestUnlockedCalls_describes h
  | putResponse response => cases h; exact ⟨rfl, rfl, rfl⟩
  | replicaUpdate update => exact grvReplicaUpdateCalls_describes h
  | replicaUpdateVvLocked update => exact grvReplicaUpdateVvLockedCalls_describes h
  | replicaUpdateVvUnlocked update => exact grvReplicaUpdateVvUnlockedCalls_describes h
  | lstFromLeaf leafLst => exact grvLstFromLeafCalls_describes h
  | lstFromLeafRootLocked => cases h; exact grvUpdateUnlockCalls_describes _ _ _
  | lstFromLeafRootUnlocked =>
    cases h
    exact ⟨callOuts_map_output _, (lockFree_map_output _).cont_done, callNoTime_map_output _⟩
  | startGstComputation => exact grvStartGstComputationCalls_describes h
  | gstFromRoot rootGst => exact grvGstFromRootCalls_describes h
  | gstFromRootLocked rootGst => cases h; exact grvUpdateUnlockCalls_describes _ _ _
  | gstFromRootUnlocked => exact grvGstFromRootUnlockedCalls_describes h
  | sliceRequest request => exact grvSliceRequestCalls_describes h
  | sliceRequestLocked request => cases h; exact grvUpdateUnlockCalls_describes _ _ _
  | sliceRequestUnlocked request => exact grvSliceRequestUnlockedCalls_describes h
  | sliceResponse slice => exact grvSliceResponseCalls_describes h
  | rotxRequest request => exact grvRotxRequestCalls_describes h
  | rotxRequestLocked request => cases h; exact grvUpdateUnlockCalls_describes _ _ _
  | rotxRequestUnlocked request => exact grvRotxRequestUnlockedCalls_describes h
  | rotxResponse response => cases h
  | clockTick => exact grvClockTickCalls_describes h
  | clockTickLocked => cases h; exact ⟨rfl, rfl, rfl⟩
  | clockTickUnlocked sendTime => exact grvClockTickUnlockedCalls_describes h
  | heartbeat heartbeat => cases h; exact ⟨rfl, rfl, rfl⟩
  | heartbeatLocked heartbeat => cases h; exact ⟨rfl, rfl, rfl⟩
  | clientTick => cases h

end Describes

end CCSim
