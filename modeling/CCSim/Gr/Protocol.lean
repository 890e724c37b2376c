/-
# The GentleRain protocol (`gr`): messages, server and client

One definition for every handler of `server/protocols/gr` and of `client/protocols/gr.c`, under
the source's name.  A handler gets the state of its process and the data of its event, and
returns an `Outcome`: the new state, the messages it sends, and the lock operation it ends with.
`none` is a failed assertion, or a use of memory the source never wrote.

* CPU times are not computed here: the kernel draws them.  `noTime` records that the handler
  called `cpu_allow_no_time`.
* The counters and arrays that only feed the statistics are left out.
* Fields that are marked as history are written and copied, and never looked at by a branch.
  They say which versions a client knew (`past`) and which version a read returned.
-/
import CCSim.Setup
import CCSim.Store

namespace CCSim

variable {c : Cluster}

abbrev GrItem (c : Cluster) := Item (Replica c) Unit
abbrev GrReplicaUpdate (c : Cluster) := ReplicaUpdate (Replica c) Unit
abbrev GrVersion (c : Cluster) := Version (Replica c)

/-! ## 1. Messages -/

structure GrGetRequest (c : Cluster) where
  client : ClientId c
  proxy : Option (ServerId c)
  key : Key
  gst : ℚ
  /-- History: what the client knew when it sent the request. -/
  past : List (GrVersion c)

structure GrGetResponse (c : Cluster) where
  client : ClientId c
  gst : ℚ
  updateTimestamp : ℚ
  value : Value
  /-- History: the key of the request, what was read, and the `past` of the request. -/
  key : Key
  read : Option (GrItem c)
  past : List (GrVersion c)

structure GrPutRequest (c : Cluster) where
  client : ClientId c
  proxy : Option (ServerId c)
  key : Key
  value : Value
  dependencyTime : ℚ
  /-- History: what the client knew when it sent the request. -/
  past : List (GrVersion c)

structure GrPutResponse (c : Cluster) where
  client : ClientId c
  updateTimestamp : ℚ
  /-- History: the version that was written. -/
  written : GrVersion c

structure GrHeartbeat (c : Cluster) where
  replica : Replica c
  time : ℚ

structure GrLstFromLeaf (c : Cluster) where
  leafPartitionId : Partition c
  lst : ℚ

structure GrGstFromRoot where
  gst : ℚ

structure GrGetSnapshotRequest (c : Cluster) where
  requestId : ℕ
  client : Lpid c
  gst : ℚ
  keys : List Key

/-- History: one answered slice of a snapshot, with the index of its key. -/
structure GrSliceRead (c : Cluster) where
  keyId : ℕ
  key : Key
  time : ℚ
  item : Option (GrItem c)

structure GrGetSnapshotResponse (c : Cluster) where
  requestId : ℕ
  gst : ℚ
  updateTimestamp : ℚ
  values : List Value
  /-- History: the keys and the time of the snapshot, and its answered slices. -/
  keys : List Key
  time : ℚ
  reads : List (GrSliceRead c)

structure GrSliceRequest (c : Cluster) where
  fromLpid : ServerId c
  snapshotTime : ℚ
  snapshotId : ℕ
  key : Key
  keyId : ℕ

structure GrSliceResponse (c : Cluster) where
  snapshotId : ℕ
  value : Value
  updateTime : ℚ
  gst : ℚ
  keyId : ℕ
  /-- History: the key and time of the request, and what was read. -/
  key : Key
  snapshotTime : ℚ
  read : Option (GrItem c)

structure GrGetRotxRequest (c : Cluster) where
  client : ClientId c
  dependencyTime : ℚ
  keys : List Key
  gst : ℚ

structure GrGetRotxResponse (c : Cluster) where
  client : ClientId c
  values : List Value
  gst : ℚ
  updateTimestamp : ℚ
  /-- History: the keys and the time of the snapshot, and its answered slices. -/
  keys : List Key
  time : ℚ
  reads : List (GrSliceRead c)

/-- The events of a server or a client, with their data.  A `LOCKED` event runs with its lock
held, an `UNLOCKED` event when the lock has been given back. -/
inductive GrEvent (c : Cluster)
  | getRequest (request : GrGetRequest c)
  | forwardGetRequestLocked (request : GrGetRequest c)
  | getRequestLocked (id : ℕ)
  | getRequestUnlocked (id : ℕ)
  | getResponse (response : GrGetResponse c)
  | putRequest (request : GrPutRequest c)
  | putRequestLocked (id : ℕ)
  | putRequestUnlocked (id : ℕ)
  | putResponse (response : GrPutResponse c)
  | replicaUpdate (update : GrReplicaUpdate c)
  | replicaUpdateLocked (update : GrReplicaUpdate c)
  | replicaUpdateUnlocked (update : GrReplicaUpdate c)
  | lstFromLeaf (leafLst : GrLstFromLeaf c)
  | lstFromLeafRootLocked
  | lstFromLeafRootUnlocked
  | startGstComputation
  | gstFromRoot (rootGst : GrGstFromRoot)
  | gstFromRootLocked (rootGst : GrGstFromRoot)
  | gstFromRootUnlocked (rootGst : GrGstFromRoot)
  | getSnapshotRequest (request : GrGetSnapshotRequest c)
  | getSnapshotRequestLocked (id : ℕ)
  | getSnapshotRequestUnlocked (id : ℕ)
  | getSnapshotResponse (response : GrGetSnapshotResponse c)
  | sliceRequest (request : GrSliceRequest c)
  | sliceRequestLocked (request : GrSliceRequest c)
  | sliceRequestUnlocked (request : GrSliceRequest c)
  | sliceResponse (slice : GrSliceResponse c)
  | sliceResponseLocked (slice : GrSliceResponse c)
  | sliceResponseUnlocked (slice : GrSliceResponse c)
  | rotxRequest (request : GrGetRotxRequest c)
  | rotxResponse (response : GrGetRotxResponse c)
  | clockTick
  | clockTickLocked
  | clockTickUnlocked (sendTime : Bool)
  | heartbeat (heartbeat : GrHeartbeat c)
  | heartbeatLocked (heartbeat : GrHeartbeat c)
  | clientTick

/-! ## 2. The state of a server -/

structure GrGetState (c : Cluster) where
  key : Key
  gst : ℚ
  destination : Lpid c
  client : ClientId c
  past : List (GrVersion c)

/-- The fields of `gr_put_state_t` that are written once the lock is held. -/
structure GrPutStamp (c : Cluster) where
  updateTimestamp : ℚ
  updateTimeNoSkew : ℚ
  discarded : Bool
  previousUpdateTime : ℚ
  previousSourceReplica : Replica c

structure GrPutState (c : Cluster) where
  key : Key
  value : Value
  destination : Lpid c
  client : ClientId c
  past : List (GrVersion c)
  stamp : Option (GrPutStamp c)

structure GrSnapshotState (c : Cluster) where
  client : Lpid c
  requestId : ℕ
  updateTime : ℚ
  gst : ℚ
  time : ℚ
  keys : List Key
  values : List Value
  receivedValues : ℕ
  reads : List (GrSliceRead c)

structure GrRotxState (c : Cluster) where
  client : ClientId c
  dependencyTime : ℚ
  snapshotRequest : GrGetSnapshotRequest c
  waitingGst : Bool

/-- `gr_server_state_t`, less its statistics and what does not change. -/
structure GrServerState (c : Cluster) where
  now : ℚ
  clock : ℚ
  store : Store (Replica c) Unit
  versionVector : Replica c → ℚ
  gst : ℚ
  minLst : ℚ
  lstReceived : ℕ → Bool
  getStates : PtrArray (GrGetState c)
  putStates : PtrArray (GrPutState c)
  snapshotStates : PtrArray (GrSnapshotState c)
  rotxStates : PtrArray (GrRotxState c)
  replicaUpdateQueues : Replica c → List (GrReplicaUpdate c)

/-- `gr_init_state`. -/
def grInitState (c : Cluster) : GrServerState c where
  now := 0
  clock := 0
  store _ := []
  versionVector _ := 0
  gst := 0
  minLst := 0
  lstReceived _ := false
  getStates := []
  putStates := []
  snapshotStates := []
  rotxStates := []
  replicaUpdateQueues _ := []

abbrev GrOutcome (c : Cluster) := Outcome (ServerId c) (ClientId c) (GrEvent c) (GrServerState c)
abbrev GrOut (c : Cluster) := Out (ServerId c) (ClientId c) (GrEvent c)

/-- `server_send`. -/
def grSend (lpid : Lpid c) (e : GrEvent c) : GrOut c :=
  match lpid with
  | .server s => .toServer s e
  | .client k => .toClient k e

/-- The lock `state->lock`, and the locks `state->replica_locks[r]`. -/
def grLock : ℕ := 0
def grReplicaLock (r : Replica c) : ℕ := 1 + r.val

/-! ## 3. The global stable time -/

/-- `gr_send_rotx_snapshot_request`. -/
def grSendRotxSnapshotRequest (rotx : GrRotxState c) : GrOut c :=
  .self 0 (.getSnapshotRequest rotx.snapshotRequest)

/-- `rotx_gst_update_callback`. -/
def grRotxGstUpdateCallback (gst : ℚ) (rotx : GrRotxState c) : GrRotxState c × List (GrOut c) :=
  if rotx.waitingGst ∧ rotx.dependencyTime < gst then
    ({ rotx with waitingGst := false }, [grSendRotxSnapshotRequest rotx])
  else (rotx, [])

/-- `gr_rotx_on_gst_updated`. -/
def grRotxOnGstUpdated (st : GrServerState c) : GrServerState c × List (GrOut c) :=
  ({ st with rotxStates := st.rotxStates.map (Option.map fun rotx =>
      (grRotxGstUpdateCallback st.gst rotx).1) },
    st.rotxStates.flatMap fun rotx => match rotx with
      | none => []
      | some rotx => (grRotxGstUpdateCallback st.gst rotx).2)

/-- `gr_update_gst`. -/
def grUpdateGst (st : GrServerState c) (gst : ℚ) : GrServerState c × List (GrOut c) :=
  if st.gst < gst then grRotxOnGstUpdated { st with gst := gst } else (st, [])

/-- `gr_gst_need_update`. -/
def grGstNeedUpdate (st : GrServerState c) (gst : ℚ) : Bool := decide (st.gst < gst)

/-- `count_lst_received`. -/
def countLstReceived (c : Cluster) (lstReceived : ℕ → Bool) : ℕ :=
  ((List.range c.treeFanout).filter lstReceived).length

/-- `min_replica_version`. -/
def grMinReplicaVersion (st : GrServerState c) : ℚ :=
  (List.finRange c.numReplicas).foldl (fun minVersion i =>
    if st.versionVector i < minVersion then st.versionVector i else minVersion)
    (st.versionVector c.replica0)

/-- `gr_send_lst_to_parent`. -/
def grSendLstToParent (self : ServerId c) (st : GrServerState c) : Option (GrOutcome c) :=
  if self.2.val = 0 then none
  else some
    { state := { st with lstReceived := fun _ => false }
      outs := [.toServer (self.1, parentPartition self.2) (.lstFromLeaf ⟨self.2, st.minLst⟩)] }

/-- `gr_process_lst_from_leaf`. -/
def grProcessLstFromLeaf (self : ServerId c) (st : GrServerState c)
    (leafLst : GrLstFromLeaf c) : Option (GrOutcome c) :=
  let index := childPartitionIndex c leafLst.leafPartitionId
  if leafLst.leafPartitionId.val = 0 ∨ st.lstReceived index then none
  else
    let lstReceived := countLstReceived c st.lstReceived
    let st := { st with
      minLst := if lstReceived = 0 ∨ leafLst.lst < st.minLst then leafLst.lst else st.minLst
      lstReceived := Function.update st.lstReceived index true }
    if lstReceived = (numChildrenPartitions self.2 + uintSize - 1) % uintSize then
      let minVersion := grMinReplicaVersion st
      let st := { st with
        lstReceived := fun _ => false
        minLst := if minVersion < st.minLst then minVersion else st.minLst }
      if self.2.val = 0 then
        some { state := st, cont := .lock .mutex grLock .lstFromLeafRootLocked }
      else grSendLstToParent self st
    else some { state := st }

/-- `gr_process_lst_from_leaf_root_locked`. -/
def grProcessLstFromLeafRootLocked (st : GrServerState c) : Option (GrOutcome c) :=
  let (st, outs) := grUpdateGst st st.minLst
  some { state := st, outs := outs, cont := .unlock .mutex grLock (some .lstFromLeafRootUnlocked) }

/-- `gr_send_gst` to every child. -/
def grSendGst (self : ServerId c) (rootGst : GrGstFromRoot) : List (GrOut c) :=
  (childrenPartitions self.2).map fun p => .toServer (self.1, p) (.gstFromRoot rootGst)

/-- `gr_process_lst_from_leaf_root_unlocked`, which is `gr_send_gst_to_children`. -/
def grProcessLstFromLeafRootUnlocked (self : ServerId c) (st : GrServerState c) :
    Option (GrOutcome c) :=
  some { state := st, outs := grSendGst self ⟨st.gst⟩ }

/-- `gr_process_gst_from_root`. -/
def grProcessGstFromRoot (st : GrServerState c) (rootGst : GrGstFromRoot) :
    Option (GrOutcome c) :=
  some { state := st, cont := .lock .mutex grLock (.gstFromRootLocked rootGst) }

/-- `gr_process_gst_from_root_locked`. -/
def grProcessGstFromRootLocked (st : GrServerState c) (rootGst : GrGstFromRoot) :
    Option (GrOutcome c) :=
  let (st, outs) := grUpdateGst st rootGst.gst
  some { state := st, outs := outs,
         cont := .unlock .mutex grLock (some (.gstFromRootUnlocked rootGst)) }

/-- `gr_schedule_gst_computation_start`. -/
def grScheduleGstComputationStart (c : Cluster) : GrOut c :=
  .self c.gstInterval .startGstComputation

/-- `gr_process_gst_from_root_unlocked`. -/
def grProcessGstFromRootUnlocked (self : ServerId c) (st : GrServerState c)
    (rootGst : GrGstFromRoot) : Option (GrOutcome c) :=
  if isLeafPartition self.2 then
    some { state := st, outs := [grScheduleGstComputationStart c], noTime := true }
  else some { state := st, outs := grSendGst self rootGst }

/-- `gr_process_start_gst_computation`. -/
def grProcessStartGstComputation (self : ServerId c) (st : GrServerState c) :
    Option (GrOutcome c) :=
  if isLeafPartition self.2 then
    if self.2.val = 0 then
      -- only one partition
      let (st, outs) := grUpdateGst st (st.versionVector c.replica0)
      some { state := st, outs := outs ++ [grScheduleGstComputationStart c] }
    else some
      { state := st
        outs := [.toServer (self.1, parentPartition self.2)
          (.lstFromLeaf ⟨self.2, grMinReplicaVersion st⟩)] }
  else none

/-! ## 4. GET and PUT -/

/-- `gr_is_value_visible`. -/
def grIsValueVisible (self : ServerId c) (gst : ℚ) (item : GrItem c) : Bool :=
  decide (item.sourceReplica = self.1 ∨ item.updateTime ≤ gst)

/-- `gr_get_value`, less its assertion. -/
def grGetValue (self : ServerId c) (st : GrServerState c) (key : Key) : Option (GrItem c) :=
  getValueAt st.store key (grIsValueVisible self st.gst)

/-- `gr_put_value`, less its assertion. -/
def grPutValue (st : GrServerState c) (key : Key) (item : GrItem c) :
    Option (Store (Replica c) Unit) :=
  putValue st.store key item

/-- The response to a GET. -/
def grGetAnswer (self : ServerId c) (st : GrServerState c) (getState : GrGetState c) :
    GrGetResponse c :=
  let item := grGetValue self st getState.key
  { client := getState.client, gst := st.gst, updateTimestamp := updateTimeOf item
    value := valueOf item, key := getState.key, read := item, past := getState.past }

/-- `gr_process_get_request_unlocked`. -/
def grProcessGetRequestUnlocked (self : ServerId c) (st : GrServerState c) (id : ℕ) :
    Option (GrOutcome c) :=
  match ptrArrayGet st.getStates id with
  | none => none
  | some getState =>
    if ownsKey self getState.key then
      some
        { state := { st with getStates := ptrArraySet st.getStates id none }
          outs := [grSend getState.destination (.getResponse (grGetAnswer self st getState))] }
    else none

/-- `gr_process_get_request`. -/
def grProcessGetRequest (self : ServerId c) (st : GrServerState c) (request : GrGetRequest c) :
    Option (GrOutcome c) :=
  let keyLocation := lpidForKey self request.key
  if keyLocation ≠ self then
    if request.proxy ≠ none then none
    else
      let request := { request with proxy := some self }
      some
        { state := st
          outs := [.toServer keyLocation (.getRequest request)]
          cont := if grGstNeedUpdate st request.gst then
              .lock .mutex grLock (.forwardGetRequestLocked request)
            else .done }
  else
    let getState : GrGetState c :=
      { key := request.key, gst := request.gst, client := request.client, past := request.past
        destination := replyTo request.client request.proxy }
    let id := ptrArrayFree st.getStates
    let st := { st with getStates := ptrArrayPut getState st.getStates }
    if grGstNeedUpdate st getState.gst then
      some { state := st, cont := .lock .mutex grLock (.getRequestLocked id) }
    else grProcessGetRequestUnlocked self st id

/-- `gr_process_forward_get_request_locked`. -/
def grProcessForwardGetRequestLocked (st : GrServerState c) (request : GrGetRequest c) :
    Option (GrOutcome c) :=
  let (st, outs) := grUpdateGst st request.gst
  some { state := st, outs := outs, cont := .unlock .mutex grLock none }

/-- `gr_process_get_request_locked`. -/
def grProcessGetRequestLocked (st : GrServerState c) (id : ℕ) : Option (GrOutcome c) :=
  match ptrArrayGet st.getStates id with
  | none => none
  | some getState =>
    let (st, outs) := grUpdateGst st getState.gst
    some { state := st, outs := outs,
           cont := .unlock .mutex grLock (some (.getRequestUnlocked id)) }

/-- `gr_process_put_request`. -/
def grProcessPutRequest (self : ServerId c) (st : GrServerState c) (request : GrPutRequest c) :
    Option (GrOutcome c) :=
  let keyLocation := lpidForKey self request.key
  if keyLocation ≠ self then
    if request.proxy ≠ none then none
    else some
      { state := st
        outs := [.toServer keyLocation (.putRequest { request with proxy := some self })] }
  else if st.clock < request.dependencyTime then
    -- the request comes from the future
    some { state := st
           outs := [.self (request.dependencyTime - st.clock) (.putRequest request)] }
  else
    let putState : GrPutState c :=
      { key := request.key, value := request.value, client := request.client
        past := request.past, destination := replyTo request.client request.proxy, stamp := none }
    some { state := { st with putStates := ptrArrayPut putState st.putStates }
           cont := .lock .mutex grLock (.putRequestLocked (ptrArrayFree st.putStates)) }

/-- The item a PUT puts into the store. -/
def grPutItem (self : ServerId c) (st : GrServerState c) (putState : GrPutState c) : GrItem c :=
  { value := putState.value, updateTime := st.clock, dependencyVector := (),
    sourceReplica := self.1, past := putState.past }

/-- What a PUT notes down when it gets the lock. -/
def grPutStamp (st : GrServerState c) (key : Key) (discarded : Bool) : GrPutStamp c where
  updateTimestamp := st.clock
  updateTimeNoSkew := st.now
  discarded := discarded
  previousUpdateTime := updateTimeOf (st.store key).head?
  previousSourceReplica := sourceReplicaOf c.replica0 (st.store key).head?

/-- The outcome of a PUT under the lock; `store` is the store with the item, unless it was
discarded. -/
def grPutOutcome (self : ServerId c) (st : GrServerState c) (id : ℕ) (putState : GrPutState c)
    (store : Option (Store (Replica c) Unit)) : GrOutcome c :=
  { state := { st with
      versionVector := Function.update st.versionVector self.1 st.clock
      store := store.getD st.store
      putStates := ptrArraySet st.putStates id (some
        { putState with stamp := some (grPutStamp st putState.key store.isNone) }) }
    cont := .unlock .mutex grLock (some (.putRequestUnlocked id)) }

/-- `gr_process_put_request_locked`. -/
def grProcessPutRequestLocked (self : ServerId c) (st : GrServerState c) (id : ℕ) :
    Option (GrOutcome c) :=
  match ptrArrayGet st.putStates id with
  | none => none
  | some putState =>
    if ownsKey self putState.key then
      some (grPutOutcome self st id putState
        (grPutValue st putState.key (grPutItem self st putState)))
    else none

/-- `gr_replicate_value`. -/
def grReplicateValue (self : ServerId c) (update : GrReplicaUpdate c) : List (GrOut c) :=
  (otherReplicas self).map fun s => .toServer s (.replicaUpdate update)

/-- The update that tells the other replicas of a PUT. -/
def grPutUpdate (self : ServerId c) (putState : GrPutState c) (stamp : GrPutStamp c) :
    GrReplicaUpdate c :=
  { key := putState.key, value := putState.value, updateTime := stamp.updateTimestamp
    updateTimeNoSkew := stamp.updateTimeNoSkew, sourceReplica := self.1
    previousUpdateTime := stamp.previousUpdateTime
    previousSourceReplica := stamp.previousSourceReplica
    dependencyVector := (), past := putState.past }

/-- The response to a PUT. -/
def grPutAnswer (self : ServerId c) (putState : GrPutState c) (stamp : GrPutStamp c) :
    GrPutResponse c where
  client := putState.client
  updateTimestamp := stamp.updateTimestamp
  written := (grPutUpdate self putState stamp).version

/-- `gr_process_put_request_unlocked`. -/
def grProcessPutRequestUnlocked (self : ServerId c) (st : GrServerState c) (id : ℕ) :
    Option (GrOutcome c) :=
  match ptrArrayGet st.putStates id with
  | none => none
  | some putState =>
    match putState.stamp with
    | none => none
    | some stamp =>
      some
        { state := { st with putStates := ptrArraySet st.putStates id none }
          outs := grSend putState.destination (.putResponse (grPutAnswer self putState stamp)) ::
            -- the value is not replicated if it has been discarded as a result of a conflict
            if stamp.discarded then []
            else grReplicateValue self (grPutUpdate self putState stamp) }

/-- `gr_process_get_response`; that the client is not this server holds by type. -/
def grProcessGetResponse (st : GrServerState c) (response : GrGetResponse c) :
    Option (GrOutcome c) :=
  some { state := st, outs := [.toClient response.client (.getResponse response)] }

/-- `gr_process_put_response`. -/
def grProcessPutResponse (st : GrServerState c) (response : GrPutResponse c) :
    Option (GrOutcome c) :=
  some { state := st, outs := [.toClient response.client (.putResponse response)] }

/-! ## 5. Replication and heartbeats -/

/-- A conflicting update that is newer than the latest item is neither installed nor dropped. -/
def grUpdateRules (self : ServerId c) : UpdateRules (Replica c) where
  self := self.1
  zero := c.replica0
  owns := ownsKey self
  installNewer := false

/-- The outcome of the work on a queue of updates. -/
def grReplicaUpdateOutcome (st : GrServerState c) (source : Replica c)
    (r : List (GrReplicaUpdate c) × Option (GrReplicaUpdate c)) : GrOutcome c :=
  { state := { st with
      replicaUpdateQueues := Function.update st.replicaUpdateQueues source r.1 }
    noTime := r.1 = []
    cont := match r.2 with
      | none => .done
      | some update =>
        .lock .mutex (grReplicaLock update.sourceReplica) (.replicaUpdateLocked update) }

/-- `gr_process_replica_update`. -/
def grProcessReplicaUpdate (self : ServerId c) (st : GrServerState c)
    (update : GrReplicaUpdate c) : Option (GrOutcome c) :=
  let queue := st.replicaUpdateQueues update.sourceReplica
  (replicaUpdateEnqueue (grUpdateRules self) st.store queue update).map fun r =>
    let outcome := grReplicaUpdateOutcome st update.sourceReplica r
    { outcome with noTime := outcome.noTime || !queue.isEmpty }

/-- `gr_process_replica_update_locked`. -/
def grProcessReplicaUpdateLocked (self : ServerId c) (st : GrServerState c)
    (update : GrReplicaUpdate c) : Option (GrOutcome c) :=
  if ownsKey self update.key ∧ 0 < st.now - update.updateTimeNoSkew then
    some
      { state := { st with
          store := (grPutValue st update.key update.item).getD st.store
          versionVector :=
            Function.update st.versionVector update.sourceReplica update.updateTime }
        cont := .unlock .mutex (grReplicaLock update.sourceReplica)
          (some (.replicaUpdateUnlocked update)) }
  else none

/-- `gr_process_replica_update_unlocked`. -/
def grProcessReplicaUpdateUnlocked (self : ServerId c) (st : GrServerState c)
    (update : GrReplicaUpdate c) : Option (GrOutcome c) :=
  let queue := st.replicaUpdateQueues update.sourceReplica
  (replicaUpdateDequeue (grUpdateRules self) st.store queue update).map
    (grReplicaUpdateOutcome st update.sourceReplica)

/-- `gr_process_heartbeat`. -/
def grProcessHeartbeat (st : GrServerState c) (heartbeat : GrHeartbeat c) :
    Option (GrOutcome c) :=
  some
    { state := st
      cont := if st.versionVector heartbeat.replica < heartbeat.time then
          .lock .mutex (grReplicaLock heartbeat.replica) (.heartbeatLocked heartbeat)
        else .done }

/-- `gr_process_heartbeat_locked`. -/
def grProcessHeartbeatLocked (st : GrServerState c) (heartbeat : GrHeartbeat c) :
    Option (GrOutcome c) :=
  some
    { state := { st with
        versionVector := if st.versionVector heartbeat.replica < heartbeat.time then
            Function.update st.versionVector heartbeat.replica heartbeat.time
          else st.versionVector }
      cont := .unlock .mutex (grReplicaLock heartbeat.replica) none }

/-- `gr_send_heartbeat`. -/
def grSendHeartbeat (self : ServerId c) (st : GrServerState c) (sendTime : Bool) :
    List (GrOut c) :=
  (otherReplicas self).map fun s =>
    .toServer s (.heartbeat ⟨self.1, if sendTime then st.clock else 0⟩)

/-- `gr_process_clock_tick_unlocked`. -/
def grProcessClockTickUnlocked (self : ServerId c) (st : GrServerState c) (sendTime : Bool) :
    Option (GrOutcome c) :=
  some { state := st
         outs := grSendHeartbeat self st sendTime ++ [.self c.clockInterval .clockTick] }

/-- `gr_process_clock_tick`. -/
def grProcessClockTick (self : ServerId c) (st : GrServerState c) : Option (GrOutcome c) :=
  if st.versionVector self.1 + c.clockInterval ≤ st.clock then
    some { state := st, cont := .lock .mutex grLock .clockTickLocked }
  else grProcessClockTickUnlocked self st false

/-- `gr_process_clock_tick_locked`. -/
def grProcessClockTickLocked (self : ServerId c) (st : GrServerState c) : Option (GrOutcome c) :=
  if st.versionVector self.1 + c.clockInterval ≤ st.clock then
    some { state := { st with
             versionVector := Function.update st.versionVector self.1 st.clock }
           cont := .unlock .mutex grLock (some (.clockTickUnlocked true)) }
  else some { state := st, cont := .unlock .mutex grLock (some (.clockTickUnlocked false)) }

/-! ## 6. Read-only transactions -/

/-- `gr_process_rotx_request`. -/
def grProcessRotxRequest (self : ServerId c) (st : GrServerState c)
    (request : GrGetRotxRequest c) : Option (GrOutcome c) :=
  let waitingGst := !decide (request.dependencyTime ≤ st.gst)
  let id := ptrArrayFree st.rotxStates
  let rotx : GrRotxState c :=
    { client := request.client, dependencyTime := request.dependencyTime
      snapshotRequest :=
        { requestId := id, client := .server self, gst := request.gst, keys := request.keys }
      waitingGst := waitingGst }
  some { state := { st with rotxStates := ptrArrayPut rotx st.rotxStates }
         outs := if waitingGst then [] else [grSendRotxSnapshotRequest rotx] }

/-- `gr_process_get_snapshot_request`. -/
def grProcessGetSnapshotRequest (st : GrServerState c) (request : GrGetSnapshotRequest c) :
    Option (GrOutcome c) :=
  let snapshot : GrSnapshotState c :=
    { client := request.client, requestId := request.requestId, updateTime := 0
      gst := request.gst, time := 0, keys := request.keys
      values := List.replicate request.keys.length 0, receivedValues := 0, reads := [] }
  let id := ptrArrayFree st.snapshotStates
  some { state := { st with snapshotStates := ptrArrayPut snapshot st.snapshotStates }
         cont := .lock .mutex grLock (.getSnapshotRequestLocked id) }

/-- `gr_process_get_snapshot_request_locked`. -/
def grProcessGetSnapshotRequestLocked (st : GrServerState c) (id : ℕ) :
    Option (GrOutcome c) :=
  match ptrArrayGet st.snapshotStates id with
  | none => none
  | some snapshot =>
    let (st, outs) := grUpdateGst st snapshot.gst
    let snapshot := { snapshot with gst := 0, time := st.gst }
    some
      { state := { st with snapshotStates := ptrArraySet st.snapshotStates id (some snapshot) }
        outs := outs
        cont := .unlock .mutex grLock (some (.getSnapshotRequestUnlocked id)) }

/-- The requests for the slices of a snapshot. -/
def grSliceRequests (self : ServerId c) (id : ℕ) (snapshot : GrSnapshotState c) :
    List (GrOut c) :=
  snapshot.keys.mapIdx fun i key =>
    .toServer (lpidForKey self key) (.sliceRequest
      { fromLpid := self, snapshotTime := snapshot.time, snapshotId := id, key := key
        keyId := i })

/-- `gr_process_get_snapshot_request_unlocked`. -/
def grProcessGetSnapshotRequestUnlocked (self : ServerId c) (st : GrServerState c) (id : ℕ) :
    Option (GrOutcome c) :=
  match ptrArrayGet st.snapshotStates id with
  | none => none
  | some snapshot => some { state := st, outs := grSliceRequests self id snapshot }

/-- `is_value_visible_snapshot`. -/
def grIsValueVisibleSnapshot (time : ℚ) (item : GrItem c) : Bool :=
  decide (item.updateTime ≤ time)

/-- The answer to the request for a slice. -/
def grSliceAnswer (st : GrServerState c) (request : GrSliceRequest c) : GrSliceResponse c :=
  let item := getValueAt st.store request.key (grIsValueVisibleSnapshot request.snapshotTime)
  { snapshotId := request.snapshotId, value := valueOf item, updateTime := updateTimeOf item
    gst := st.gst, keyId := request.keyId, key := request.key
    snapshotTime := request.snapshotTime, read := item }

/-- `gr_process_slice_request_unlocked`. -/
def grProcessSliceRequestUnlocked (self : ServerId c) (st : GrServerState c)
    (request : GrSliceRequest c) : Option (GrOutcome c) :=
  if ownsKey self request.key then
    some { state := st
           outs := [.toServer request.fromLpid (.sliceResponse (grSliceAnswer st request))] }
  else none

/-- `gr_process_slice_request`. -/
def grProcessSliceRequest (self : ServerId c) (st : GrServerState c)
    (request : GrSliceRequest c) : Option (GrOutcome c) :=
  if grGstNeedUpdate st request.snapshotTime then
    some { state := st, cont := .lock .mutex grLock (.sliceRequestLocked request) }
  else grProcessSliceRequestUnlocked self st request

/-- `gr_process_slice_request_locked`. -/
def grProcessSliceRequestLocked (st : GrServerState c) (request : GrSliceRequest c) :
    Option (GrOutcome c) :=
  let (st, outs) := grUpdateGst st request.snapshotTime
  some { state := st, outs := outs,
         cont := .unlock .mutex grLock (some (.sliceRequestUnlocked request)) }

/-- The response to a read-only transaction. -/
def grRotxAnswer (rotx : GrRotxState c) (snapshot : GrGetSnapshotResponse c) :
    GrGetRotxResponse c where
  client := rotx.client
  values := snapshot.values
  gst := snapshot.gst
  updateTimestamp := snapshot.updateTimestamp
  keys := snapshot.keys
  time := snapshot.time
  reads := snapshot.reads

/-- `gr_process_rotx_snapshot_response`. -/
def grProcessRotxSnapshotResponse (st : GrServerState c) (snapshot : GrGetSnapshotResponse c) :
    Option (GrOutcome c) :=
  match ptrArrayGet st.rotxStates snapshot.requestId with
  | none => none
  | some rotx =>
    some { state := { st with rotxStates := ptrArraySet st.rotxStates snapshot.requestId none }
           outs := [.toClient rotx.client (.rotxResponse (grRotxAnswer rotx snapshot))] }

/-- The response to the request for a snapshot. -/
def grSnapshotAnswer (snapshot : GrSnapshotState c) : GrGetSnapshotResponse c where
  requestId := snapshot.requestId
  gst := snapshot.gst
  updateTimestamp := snapshot.updateTime
  values := snapshot.values
  keys := snapshot.keys
  time := snapshot.time
  reads := snapshot.reads

/-- `gr_send_snapshot_response`, on a state in which the slot of the snapshot is free again. -/
def grSendSnapshotResponse (self : ServerId c) (st : GrServerState c)
    (snapshot : GrSnapshotState c) : Option (GrOutcome c) :=
  if snapshot.client = .server self then
    grProcessRotxSnapshotResponse st (grSnapshotAnswer snapshot)
  else
    some { state := st
           outs := [grSend snapshot.client (.getSnapshotResponse (grSnapshotAnswer snapshot))] }

/-- The snapshot with one more slice. -/
def grReceiveSlice (snapshot : GrSnapshotState c) (slice : GrSliceResponse c) :
    GrSnapshotState c :=
  { snapshot with
    values := snapshot.values.set slice.keyId slice.value
    updateTime := if snapshot.updateTime < slice.updateTime then slice.updateTime
      else snapshot.updateTime
    gst := if snapshot.gst < slice.gst then slice.gst else snapshot.gst
    receivedValues := snapshot.receivedValues + 1
    reads := ⟨slice.keyId, slice.key, slice.snapshotTime, slice.read⟩ :: snapshot.reads }

/-- `gr_process_slice_response_unlocked`. -/
def grProcessSliceResponseUnlocked (self : ServerId c) (st : GrServerState c)
    (slice : GrSliceResponse c) : Option (GrOutcome c) :=
  match ptrArrayGet st.snapshotStates slice.snapshotId with
  | none => none
  | some snapshot =>
    let snapshot := grReceiveSlice snapshot slice
    let setSnapshot (x : Option (GrSnapshotState c)) : GrServerState c :=
      { st with snapshotStates := ptrArraySet st.snapshotStates slice.snapshotId x }
    if snapshot.receivedValues = snapshot.keys.length then
      grSendSnapshotResponse self (setSnapshot none) snapshot
    else some { state := setSnapshot (some snapshot) }

/-- `gr_process_slice_response`. -/
def grProcessSliceResponse (self : ServerId c) (st : GrServerState c)
    (slice : GrSliceResponse c) : Option (GrOutcome c) :=
  if grGstNeedUpdate st slice.gst then
    some { state := st, cont := .lock .mutex grLock (.sliceResponseLocked slice) }
  else grProcessSliceResponseUnlocked self st slice

/-- `gr_process_slice_response_locked`. -/
def grProcessSliceResponseLocked (st : GrServerState c) (slice : GrSliceResponse c) :
    Option (GrOutcome c) :=
  let (st, outs) := grUpdateGst st slice.gst
  some { state := st, outs := outs,
         cont := .unlock .mutex grLock (some (.sliceResponseUnlocked slice)) }

/-! ## 7. The dispatcher of a server -/

/-- `gr_process_event`.  A response of a kind only clients get is not handled. -/
def grProcessEvent (self : ServerId c) (st : GrServerState c) :
    GrEvent c → Option (GrOutcome c)
  | .getRequest request => grProcessGetRequest self st request
  | .forwardGetRequestLocked request => grProcessForwardGetRequestLocked st request
  | .getRequestLocked id => grProcessGetRequestLocked st id
  | .getRequestUnlocked id => grProcessGetRequestUnlocked self st id
  | .getResponse response => grProcessGetResponse st response
  | .putRequest request => grProcessPutRequest self st request
  | .putRequestLocked id => grProcessPutRequestLocked self st id
  | .putRequestUnlocked id => grProcessPutRequestUnlocked self st id
  | .putResponse response => grProcessPutResponse st response
  | .replicaUpdate update => grProcessReplicaUpdate self st update
  | .replicaUpdateLocked update => grProcessReplicaUpdateLocked self st update
  | .replicaUpdateUnlocked update => grProcessReplicaUpdateUnlocked self st update
  | .lstFromLeaf leafLst => grProcessLstFromLeaf self st leafLst
  | .lstFromLeafRootLocked => grProcessLstFromLeafRootLocked st
  | .lstFromLeafRootUnlocked => grProcessLstFromLeafRootUnlocked self st
  | .startGstComputation => grProcessStartGstComputation self st
  | .gstFromRoot rootGst => grProcessGstFromRoot st rootGst
  | .gstFromRootLocked rootGst => grProcessGstFromRootLocked st rootGst
  | .gstFromRootUnlocked rootGst => grProcessGstFromRootUnlocked self st rootGst
  | .getSnapshotRequest request => grProcessGetSnapshotRequest st request
  | .getSnapshotRequestLocked id => grProcessGetSnapshotRequestLocked st id
  | .getSnapshotRequestUnlocked id => grProcessGetSnapshotRequestUnlocked self st id
  | .sliceRequest request => grProcessSliceRequest self st request
  | .sliceRequestLocked request => grProcessSliceRequestLocked st request
  | .sliceRequestUnlocked request => grProcessSliceRequestUnlocked self st request
  | .sliceResponse slice => grProcessSliceResponse self st slice
  | .sliceResponseLocked slice => grProcessSliceResponseLocked st slice
  | .sliceResponseUnlocked slice => grProcessSliceResponseUnlocked self st slice
  | .rotxRequest request => grProcessRotxRequest self st request
  | .clockTick => grProcessClockTick self st
  | .clockTickLocked => grProcessClockTickLocked self st
  | .clockTickUnlocked sendTime => grProcessClockTickUnlocked self st sendTime
  | .heartbeat heartbeat => grProcessHeartbeat st heartbeat
  | .heartbeatLocked heartbeat => grProcessHeartbeatLocked st heartbeat
  | .getSnapshotResponse _ => none
  | .rotxResponse _ => none
  | .clientTick => none

/-- `server_process_event`: the clocks are set, then the event is dispatched. -/
def grServerProcessEvent (self : ServerId c) (now : ℚ) (st : GrServerState c) (e : GrEvent c) :
    Option (GrOutcome c) :=
  if st.now ≤ now then
    grProcessEvent self { st with now := now, clock := c.clock self now } e
  else none

/-! ## 8. The client -/

/-- `client_state_gr_t`, and whether a request is under way (`request_time`). -/
structure GrClientState (c : Cluster) where
  dependencyTime : ℚ
  gst : ℚ
  requestTime : Option ℚ
  /-- History: the versions the client has read or written, and what they depend on. -/
  past : List (GrVersion c)

/-- `gr_client_protocol_init`. -/
def grClientInit (c : Cluster) : GrClientState c := ⟨0, 0, none, []⟩

/-- `update_times`. -/
def grUpdateTimes (st : GrClientState c) (gst dependencyTime : ℚ) : GrClientState c :=
  { st with
    dependencyTime :=
      if st.dependencyTime < dependencyTime then dependencyTime else st.dependencyTime
    gst := if st.gst < gst then gst else st.gst }

/-- `client_begin_request`. -/
def grClientBeginRequest (st : GrClientState c) (now : ℚ) : Option (GrClientState c) :=
  if st.requestTime = none then some { st with requestTime := some now } else none

/-- `client_finish_request`. -/
def grClientFinishRequest (st : GrClientState c) : Option (GrClientState c) :=
  if st.requestTime = none then none else some { st with requestTime := none }

/-- A client begins a request and sends it to its server. -/
def grClientSend (self : ClientId c) (now : ℚ) (st : GrClientState c)
    (request : GrClientState c → GrEvent c) : Option (GrClientState c × List (GrOut c)) :=
  (grClientBeginRequest st now).map fun st => (st, [.toServer self.server (request st)])

/-- What the workload decides: `gr_client_get_request`, `gr_client_put_request`,
`gr_client_rotx_request` and `client_schedule_tick`. -/
def grClientDecide (self : ClientId c) (now : ℚ) (st : GrClientState c) :
    Decision → Option (GrClientState c × List (GrOut c))
  | .nothing => some (st, [])
  | .tick delay => if 0 ≤ delay then some (st, [.self delay .clientTick]) else none
  | .get key => grClientSend self now st fun st => .getRequest
      { client := self, proxy := none, key := key, gst := st.gst, past := st.past }
  | .put key value => grClientSend self now st fun st => .putRequest
      { client := self, proxy := none, key := key, value := value
        dependencyTime := st.dependencyTime, past := st.past }
  | .rotx keys => grClientSend self now st fun st => .rotxRequest
      { client := self, dependencyTime := st.dependencyTime, keys := keys, gst := st.gst }

/-- `get_response`, up to the call of the workload. -/
def grGetResponse (st : GrClientState c) (response : GrGetResponse c) :
    Option (GrClientState c) :=
  (grClientFinishRequest st).map fun st =>
    { grUpdateTimes st response.gst response.updateTimestamp with
      past := readPast response.key response.read ++ st.past }

/-- `put_response`, up to the call of the workload. -/
def grPutResponse (st : GrClientState c) (response : GrPutResponse c) :
    Option (GrClientState c) :=
  (grClientFinishRequest st).map fun st =>
    { grUpdateTimes st 0 response.updateTimestamp with past := response.written :: st.past }

/-- `rotx_response`, up to the call of the workload. -/
def grRotxResponse (st : GrClientState c) (response : GrGetRotxResponse c) :
    Option (GrClientState c) :=
  (grClientFinishRequest st).map fun st =>
    { grUpdateTimes st response.gst response.updateTimestamp with
      past := (response.reads.flatMap fun r => readPast r.key r.item) ++ st.past }

/-- `gr_client_protocol_process_event` and `client_tick`, up to the call of the workload. -/
def grClientReceive (st : GrClientState c) : GrEvent c → Option (GrClientState c)
  | .getResponse response => grGetResponse st response
  | .putResponse response => grPutResponse st response
  | .rotxResponse response => grRotxResponse st response
  | .clientTick => some st
  | _ => none

/-- `client_process_event`: the event is received, then the workload decides. -/
def grClientProcessEvent (self : ClientId c) (now : ℚ) (decision : Decision)
    (st : GrClientState c) (e : GrEvent c) : Option (GrClientState c × List (GrOut c)) :=
  match grClientReceive st e with
  | none => none
  | some st => grClientDecide self now st decision

/-! ## 9. The program and its initial world -/

/-- Servers and clients of the protocol. -/
def grProgram (c : Cluster) :
    Program (ServerId c) (ClientId c) (GrEvent c) (GrServerState c) (GrClientState c) Decision where
  serve := grServerProcessEvent
  client := grClientProcessEvent

/-- The initial world of a simulation of the protocol. -/
def grWorld (setup : Setup c (GrEvent c)) :
    World (ServerId c) (ClientId c) (GrEvent c) (GrServerState c) (GrClientState c) :=
  setup.world (grInitState c) (grClientInit c) (1 + c.numReplicas) .startGstComputation .clockTick
    .clientTick

end CCSim
