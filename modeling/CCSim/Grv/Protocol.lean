/-
# The vector variant (`grv`): messages, server and client

One definition for every handler of `server/protocols/grv` and of `client/protocols/grv.c`, under
the source's name, in the same form as the handlers of `gr`: a handler returns the new state, the
messages it sends and the lock operation it ends with, and `none` for a failed assertion.

Where `gr` has one time, this protocol has a vector with one entry for every replica.  Vectors
that a message carries behind its fields are fields here.  What is marked as history is written
and copied, and never looked at by a branch.
-/
import CCSim.Setup
import CCSim.Store

namespace CCSim

variable {c : Cluster}

/-- An array with one time for every replica. -/
abbrev TimeVector (c : Cluster) := Replica c → ℚ

abbrev GrvItem (c : Cluster) := Item (Replica c) (TimeVector c)
abbrev GrvReplicaUpdate (c : Cluster) := ReplicaUpdate (Replica c) (TimeVector c)
abbrev GrvVersion (c : Cluster) := Version (Replica c)

/-! ## 1. Messages -/

structure GrvGetRequest (c : Cluster) where
  client : ClientId c
  proxy : Option (ServerId c)
  key : Key
  gstVector : TimeVector c
  /-- History: what the client knew when it sent the request. -/
  past : List (GrvVersion c)

structure GrvGetResponse (c : Cluster) where
  client : ClientId c
  sourceReplica : Replica c
  gstVector : TimeVector c
  updateTimestamp : ℚ
  value : Value
  /-- History: the key of the request, what was read, and the `past` of the request. -/
  key : Key
  read : Option (GrvItem c)
  past : List (GrvVersion c)

structure GrvPutRequest (c : Cluster) where
  client : ClientId c
  proxy : Option (ServerId c)
  key : Key
  value : Value
  dependencyVector : TimeVector c
  /-- History: what the client knew when it sent the request. -/
  past : List (GrvVersion c)

structure GrvPutResponse (c : Cluster) where
  client : ClientId c
  updateTime : ℚ
  sourceReplica : Replica c
  /-- History: the version that was written. -/
  written : GrvVersion c

structure GrvHeartbeat (c : Cluster) where
  replica : Replica c
  time : ℚ

structure GrvLstFromLeaf (c : Cluster) where
  leafPartitionId : Partition c
  lstVector : TimeVector c

structure GrvGstFromRoot (c : Cluster) where
  gstVector : TimeVector c

/-- The keys of a slice, each with its place among the keys of the transaction. -/
structure GrvSliceRequest (c : Cluster) where
  fromLpid : ServerId c
  snapshotTime : ℚ
  rotxId : ℕ
  keys : List (ℕ × Key)
  gstVector : TimeVector c

/-- One value of a slice.  History: its key, and the item that was read. -/
structure GrvSliceValue (c : Cluster) where
  keyId : ℕ
  value : Value
  updateTime : ℚ
  sourceReplica : Replica c
  key : Key
  read : Option (GrvItem c)

structure GrvSliceResponse (c : Cluster) where
  rotxId : ℕ
  values : List (GrvSliceValue c)

structure GrvRotxRequest (c : Cluster) where
  client : ClientId c
  dependencyTime : ℚ
  keys : List Key
  gstVector : TimeVector c

structure GrvRotxResponse (c : Cluster) where
  values : List Value
  dependencyVector : TimeVector c
  /-- History: the keys of the transaction, and its answered slices. -/
  keys : List Key
  reads : List (GrvSliceValue c)

/-- The events of a server or a client, with their data. -/
inductive GrvEvent (c : Cluster)
  | getRequest (request : GrvGetRequest c)
  | forwardedGetRequestLocked (request : GrvGetRequest c)
  | getRequestLocked (request : GrvGetRequest c)
  | getRequestUnlocked (request : GrvGetRequest c)
  | getResponse (response : GrvGetResponse c)
  | putRequest (request : GrvPutRequest c)
  | putRequestLocked (id : ℕ)
  | putRequestUnlocked (id : ℕ)
  | putResponse (response : GrvPutResponse c)
  | replicaUpdate (update : GrvReplicaUpdate c)
  | replicaUpdateVvLocked (update : GrvReplicaUpdate c)
  | replicaUpdateVvUnlocked (update : GrvReplicaUpdate c)
  | lstFromLeaf (leafLst : GrvLstFromLeaf c)
  | lstFromLeafRootLocked
  | lstFromLeafRootUnlocked
  | startGstComputation
  | gstFromRoot (rootGst : GrvGstFromRoot c)
  | gstFromRootLocked (rootGst : GrvGstFromRoot c)
  | gstFromRootUnlocked
  | sliceRequest (request : GrvSliceRequest c)
  | sliceRequestLocked (request : GrvSliceRequest c)
  | sliceRequestUnlocked (request : GrvSliceRequest c)
  | sliceResponse (slice : GrvSliceResponse c)
  | rotxRequest (request : GrvRotxRequest c)
  | rotxRequestLocked (request : GrvRotxRequest c)
  | rotxRequestUnlocked (request : GrvRotxRequest c)
  | rotxResponse (response : GrvRotxResponse c)
  | clockTick
  | clockTickLocked
  | clockTickUnlocked (sendTime : Bool)
  | heartbeat (heartbeat : GrvHeartbeat c)
  | heartbeatLocked (heartbeat : GrvHeartbeat c)
  | clientTick

/-! ## 2. The state of a server -/

/-- The fields of `struct grv_put_state` that are written once the lock is held. -/
structure GrvPutStamp (c : Cluster) where
  updateTime : ℚ
  updateTimeNoSkew : ℚ
  discarded : Bool
  /-- These two are not written, and not read, if the update is discarded. -/
  previousUpdateTime : ℚ
  previousSourceReplica : Replica c

structure GrvPutState (c : Cluster) where
  key : Key
  value : Value
  destination : Lpid c
  client : ClientId c
  dependencyVector : TimeVector c
  past : List (GrvVersion c)
  stamp : Option (GrvPutStamp c)

structure GrvRotxState (c : Cluster) where
  client : ClientId c
  dependencyVector : TimeVector c
  values : List Value
  receivedValues : ℕ
  keys : List Key
  reads : List (GrvSliceValue c)

/-- `grv_server_state_t`, less its statistics and what does not change. -/
structure GrvServerState (c : Cluster) where
  now : ℚ
  clock : ℚ
  store : Store (Replica c) (TimeVector c)
  versionVector : TimeVector c
  gstVector : TimeVector c
  minLstVector : TimeVector c
  lstReceived : ℕ → Bool
  putStates : PtrArray (GrvPutState c)
  rotxStates : PtrArray (GrvRotxState c)
  replicaUpdateQueues : Replica c → List (GrvReplicaUpdate c)

/-- `grv_init_state`. -/
def grvInitState (c : Cluster) : GrvServerState c where
  now := 0
  clock := 0
  store _ := []
  versionVector _ := 0
  gstVector _ := 0
  minLstVector _ := 0
  lstReceived _ := false
  putStates := []
  rotxStates := []
  replicaUpdateQueues _ := []

abbrev GrvOutcome (c : Cluster) :=
  Outcome (ServerId c) (ClientId c) (GrvEvent c) (GrvServerState c)
abbrev GrvOut (c : Cluster) := Out (ServerId c) (ClientId c) (GrvEvent c)

/-- `server_send`. -/
def grvSend (lpid : Lpid c) (e : GrvEvent c) : GrvOut c :=
  match lpid with
  | .server s => .toServer s e
  | .client k => .toClient k e

/-- The locks `state->lock_gsv` and `state->lock_vv`. -/
def grvLockGsv : ℕ := 0
def grvLockVv : ℕ := 1

/-! ## 3. The global stable vector -/

/-- `grv_gst_vector_need_update`. -/
def grvGstVectorNeedUpdate (st : GrvServerState c) (gstVector : TimeVector c) : Bool :=
  (List.finRange c.numReplicas).any fun i => decide (st.gstVector i < gstVector i)

/-- `grv_update_gst_vector`. -/
def grvUpdateGstVector (st : GrvServerState c) (gstVector : TimeVector c) : GrvServerState c :=
  { st with gstVector := fun i =>
      if st.gstVector i < gstVector i then gstVector i else st.gstVector i }

/-- `count_lst_received`. -/
def grvCountLstReceived (c : Cluster) (lstReceived : ℕ → Bool) : ℕ :=
  ((List.range c.treeFanout).filter lstReceived).length

/-- `set_min` on every entry. -/
def setMinVector (v w : TimeVector c) : TimeVector c := fun i => if w i < v i then w i else v i

/-- `grv_send_lst_to_parent`. -/
def grvSendLstToParent (self : ServerId c) (st : GrvServerState c) : Option (GrvOutcome c) :=
  if self.2.val = 0 then none
  else some
    { state := { st with lstReceived := fun _ => false }
      outs := [.toServer (self.1, parentPartition self.2)
        (.lstFromLeaf ⟨self.2, st.minLstVector⟩)] }

/-- `grv_process_lst_from_leaf`. -/
def grvProcessLstFromLeaf (self : ServerId c) (st : GrvServerState c)
    (leafLst : GrvLstFromLeaf c) : Option (GrvOutcome c) :=
  let index := childPartitionIndex c leafLst.leafPartitionId
  if leafLst.leafPartitionId.val = 0 ∨ st.lstReceived index then none
  else
    let lstReceived := grvCountLstReceived c st.lstReceived
    let st := { st with
      minLstVector := if lstReceived = 0 then leafLst.lstVector
        else setMinVector st.minLstVector leafLst.lstVector
      lstReceived := Function.update st.lstReceived index true }
    if lstReceived = (numChildrenPartitions self.2 + uintSize - 1) % uintSize then
      let st := { st with
        lstReceived := fun _ => false
        minLstVector := setMinVector st.minLstVector st.versionVector }
      if self.2.val = 0 then
        some { state := st, cont := .lock .mutex grvLockGsv .lstFromLeafRootLocked }
      else grvSendLstToParent self st
    else some { state := st }

/-- `grv_process_lst_from_leaf_root_locked`. -/
def grvProcessLstFromLeafRootLocked (st : GrvServerState c) : Option (GrvOutcome c) :=
  some { state := grvUpdateGstVector st st.minLstVector
         cont := .unlock .mutex grvLockGsv (some .lstFromLeafRootUnlocked) }

/-- `grv_send_gst` to every child. -/
def grvSendGst (self : ServerId c) (rootGst : GrvGstFromRoot c) : List (GrvOut c) :=
  (childrenPartitions self.2).map fun p => .toServer (self.1, p) (.gstFromRoot rootGst)

/-- `grv_process_lst_from_leaf_root_unlocked`, which is `grv_send_gst_to_children`. -/
def grvProcessLstFromLeafRootUnlocked (self : ServerId c) (st : GrvServerState c) :
    Option (GrvOutcome c) :=
  some { state := st, outs := grvSendGst self ⟨st.gstVector⟩ }

/-- `grv_process_gst_from_root`. -/
def grvProcessGstFromRoot (self : ServerId c) (st : GrvServerState c)
    (rootGst : GrvGstFromRoot c) : Option (GrvOutcome c) :=
  some { state := st, outs := grvSendGst self rootGst,
         cont := .lock .mutex grvLockGsv (.gstFromRootLocked rootGst) }

/-- `grv_process_gst_from_root_locked`. -/
def grvProcessGstFromRootLocked (st : GrvServerState c) (rootGst : GrvGstFromRoot c) :
    Option (GrvOutcome c) :=
  some { state := grvUpdateGstVector st rootGst.gstVector
         cont := .unlock .mutex grvLockGsv (some .gstFromRootUnlocked) }

/-- `grv_schedule_gst_computation_start`. -/
def grvScheduleGstComputationStart (c : Cluster) : GrvOut c :=
  .self c.gstInterval .startGstComputation

/-- `grv_process_gst_from_root_unlocked`. -/
def grvProcessGstFromRootUnlocked (self : ServerId c) (st : GrvServerState c) :
    Option (GrvOutcome c) :=
  some { state := st
         outs := if isLeafPartition self.2 then [grvScheduleGstComputationStart c] else []
         noTime := true }

/-- `grv_process_start_gst_computation`. -/
def grvProcessStartGstComputation (self : ServerId c) (st : GrvServerState c) :
    Option (GrvOutcome c) :=
  if isLeafPartition self.2 then
    if self.2.val = 0 then
      -- only one partition
      some { state := grvUpdateGstVector st st.versionVector
             outs := [grvScheduleGstComputationStart c] }
    else some
      { state := st
        outs := [.toServer (self.1, parentPartition self.2)
          (.lstFromLeaf ⟨self.2, st.versionVector⟩)] }
  else none

/-! ## 4. GET and PUT -/

/-- `grv_is_value_visible`. -/
def grvIsValueVisible (self : ServerId c) (gstVector : TimeVector c) (item : GrvItem c) : Bool :=
  decide (item.sourceReplica = self.1) || (List.finRange c.numReplicas).all fun i =>
    decide (i = self.1) || !decide (gstVector i < item.dependencyVector i)

/-- `grv_get_value`, less its assertion. -/
def grvGetValue (self : ServerId c) (st : GrvServerState c) (key : Key) : Option (GrvItem c) :=
  getValueAt st.store key (grvIsValueVisible self st.gstVector)

/-- `grv_put_value`, less its assertion. -/
def grvPutValue (st : GrvServerState c) (key : Key) (item : GrvItem c) :
    Option (Store (Replica c) (TimeVector c)) :=
  putValue st.store key item

/-- The response to a GET. -/
def grvGetAnswer (self : ServerId c) (st : GrvServerState c) (request : GrvGetRequest c) :
    GrvGetResponse c :=
  let item := grvGetValue self st request.key
  { client := request.client, sourceReplica := sourceReplicaOf c.replica0 item
    gstVector := st.gstVector, updateTimestamp := updateTimeOf item, value := valueOf item
    key := request.key, read := item, past := request.past }

/-- `grv_process_get_request_unlocked`. -/
def grvProcessGetRequestUnlocked (self : ServerId c) (st : GrvServerState c)
    (request : GrvGetRequest c) : Option (GrvOutcome c) :=
  if ownsKey self request.key then
    some { state := st
           outs := [grvSend (replyTo request.client request.proxy)
             (.getResponse (grvGetAnswer self st request))] }
  else none

/-- `grv_process_get_request`. -/
def grvProcessGetRequest (self : ServerId c) (st : GrvServerState c) (request : GrvGetRequest c) :
    Option (GrvOutcome c) :=
  let keyLocation := lpidForKey self request.key
  if keyLocation ≠ self then
    if request.proxy ≠ none then none
    else
      let request := { request with proxy := some self }
      some
        { state := grvUpdateGstVector st request.gstVector
          outs := [.toServer keyLocation (.getRequest request)]
          cont := if grvGstVectorNeedUpdate st request.gstVector then
              .lock .mutex grvLockGsv (.forwardedGetRequestLocked request)
            else .done }
  else if grvGstVectorNeedUpdate st request.gstVector then
    some { state := st, cont := .lock .mutex grvLockGsv (.getRequestLocked request) }
  else grvProcessGetRequestUnlocked self st request

/-- `grv_process_forwarded_get_request_locked`. -/
def grvProcessForwardedGetRequestLocked (st : GrvServerState c) (request : GrvGetRequest c) :
    Option (GrvOutcome c) :=
  some { state := grvUpdateGstVector st request.gstVector
         cont := .unlock .mutex grvLockGsv none }

/-- `grv_process_get_request_locked`. -/
def grvProcessGetRequestLocked (st : GrvServerState c) (request : GrvGetRequest c) :
    Option (GrvOutcome c) :=
  some { state := grvUpdateGstVector st request.gstVector
         cont := .unlock .mutex grvLockGsv (some (.getRequestUnlocked request)) }

/-- `max_array`, over all replicas. -/
def maxVector (v : TimeVector c) : ℚ :=
  (List.finRange c.numReplicas).foldl (fun m i => if m < v i then v i else m) (v c.replica0)

/-- `grv_process_put_request`. -/
def grvProcessPutRequest (self : ServerId c) (st : GrvServerState c) (request : GrvPutRequest c) :
    Option (GrvOutcome c) :=
  let keyLocation := lpidForKey self request.key
  if keyLocation ≠ self then
    if request.proxy ≠ none then none
    else some
      { state := st
        outs := [.toServer keyLocation (.putRequest { request with proxy := some self })] }
  else
    let dependencyTime := maxVector request.dependencyVector
    if st.clock < dependencyTime then
      -- the request comes from the future
      some { state := st, outs := [.self (dependencyTime - st.clock) (.putRequest request)] }
    else
      let putState : GrvPutState c :=
        { key := request.key, value := request.value, client := request.client
          dependencyVector := request.dependencyVector, past := request.past
          destination := replyTo request.client request.proxy, stamp := none }
      some { state := { st with putStates := ptrArrayPut putState st.putStates }
             cont := .lock .mutex grvLockVv (.putRequestLocked (ptrArrayFree st.putStates)) }

/-- The item a PUT puts into the store. -/
def grvPutItem (self : ServerId c) (st : GrvServerState c) (putState : GrvPutState c) :
    GrvItem c :=
  { value := putState.value, updateTime := st.clock
    dependencyVector := putState.dependencyVector, sourceReplica := self.1
    past := putState.past }

/-- What a PUT notes down when it gets the lock. -/
def grvPutStamp (st : GrvServerState c) (key : Key) (discarded : Bool) : GrvPutStamp c where
  updateTime := st.clock
  updateTimeNoSkew := st.now
  discarded := discarded
  previousUpdateTime := updateTimeOf (st.store key).head?
  previousSourceReplica := sourceReplicaOf c.replica0 (st.store key).head?

/-- The outcome of a PUT under the lock; `store` is the store with the item, unless it was
discarded. -/
def grvPutOutcome (self : ServerId c) (st : GrvServerState c) (id : ℕ) (putState : GrvPutState c)
    (store : Option (Store (Replica c) (TimeVector c))) : GrvOutcome c :=
  { state := { st with
      versionVector := Function.update st.versionVector self.1 st.clock
      store := store.getD st.store
      putStates := ptrArraySet st.putStates id (some
        { putState with stamp := some (grvPutStamp st putState.key store.isNone) }) }
    cont := .unlock .mutex grvLockVv (some (.putRequestUnlocked id)) }

/-- `grv_process_put_request_locked`. -/
def grvProcessPutRequestLocked (self : ServerId c) (st : GrvServerState c) (id : ℕ) :
    Option (GrvOutcome c) :=
  match ptrArrayGet st.putStates id with
  | none => none
  | some putState =>
    if ownsKey self putState.key then
      some (grvPutOutcome self st id putState
        (grvPutValue st putState.key (grvPutItem self st putState)))
    else none

/-- `grv_replicate_value`. -/
def grvReplicateValue (self : ServerId c) (update : GrvReplicaUpdate c) : List (GrvOut c) :=
  (otherReplicas self).map fun s => .toServer s (.replicaUpdate update)

/-- The update that tells the other replicas of a PUT. -/
def grvPutUpdate (self : ServerId c) (putState : GrvPutState c) (stamp : GrvPutStamp c) :
    GrvReplicaUpdate c :=
  { key := putState.key, value := putState.value, updateTime := stamp.updateTime
    updateTimeNoSkew := stamp.updateTimeNoSkew, sourceReplica := self.1
    previousUpdateTime := stamp.previousUpdateTime
    previousSourceReplica := stamp.previousSourceReplica
    dependencyVector := putState.dependencyVector, past := putState.past }

/-- The response to a PUT. -/
def grvPutAnswer (self : ServerId c) (putState : GrvPutState c) (stamp : GrvPutStamp c) :
    GrvPutResponse c where
  client := putState.client
  updateTime := stamp.updateTime
  sourceReplica := self.1
  written := (grvPutUpdate self putState stamp).version

/-- `grv_process_put_request_unlocked`. -/
def grvProcessPutRequestUnlocked (self : ServerId c) (st : GrvServerState c) (id : ℕ) :
    Option (GrvOutcome c) :=
  match ptrArrayGet st.putStates id with
  | none => none
  | some putState =>
    match putState.stamp with
    | none => none
    | some stamp =>
      some
        { state := { st with putStates := ptrArraySet st.putStates id none }
          outs := grvSend putState.destination (.putResponse (grvPutAnswer self putState stamp)) ::
            if stamp.discarded then []
            else grvReplicateValue self (grvPutUpdate self putState stamp) }

/-- `grv_process_get_response`; that the client is not this server holds by type. -/
def grvProcessGetResponse (st : GrvServerState c) (response : GrvGetResponse c) :
    Option (GrvOutcome c) :=
  some { state := st, outs := [.toClient response.client (.getResponse response)] }

/-- `grv_process_put_response`. -/
def grvProcessPutResponse (st : GrvServerState c) (response : GrvPutResponse c) :
    Option (GrvOutcome c) :=
  some { state := st, outs := [.toClient response.client (.putResponse response)] }

/-! ## 5. Replication and heartbeats -/

/-- A conflicting update that is newer than the latest item is installed. -/
def grvUpdateRules (self : ServerId c) : UpdateRules (Replica c) where
  self := self.1
  zero := c.replica0
  owns := ownsKey self
  installNewer := true

/-- The outcome of the work on a queue of updates. -/
def grvReplicaUpdateOutcome (st : GrvServerState c) (source : Replica c)
    (r : List (GrvReplicaUpdate c) × Option (GrvReplicaUpdate c)) : GrvOutcome c :=
  { state := { st with
      replicaUpdateQueues := Function.update st.replicaUpdateQueues source r.1 }
    noTime := r.1 = []
    cont := match r.2 with
      | none => .done
      | some update => .lock .mutex grvLockVv (.replicaUpdateVvLocked update) }

/-- `grv_process_replica_update`. -/
def grvProcessReplicaUpdate (self : ServerId c) (st : GrvServerState c)
    (update : GrvReplicaUpdate c) : Option (GrvOutcome c) :=
  let queue := st.replicaUpdateQueues update.sourceReplica
  (replicaUpdateEnqueue (grvUpdateRules self) st.store queue update).map fun r =>
    let outcome := grvReplicaUpdateOutcome st update.sourceReplica r
    { outcome with noTime := outcome.noTime || !queue.isEmpty }

/-- `grv_process_replica_update_vv_locked`. -/
def grvProcessReplicaUpdateVvLocked (self : ServerId c) (st : GrvServerState c)
    (update : GrvReplicaUpdate c) : Option (GrvOutcome c) :=
  if ownsKey self update.key ∧ 0 < st.now - update.updateTimeNoSkew then
    some
      { state := { st with
          store := (grvPutValue st update.key update.item).getD st.store
          versionVector :=
            Function.update st.versionVector update.sourceReplica update.updateTime }
        cont := .unlock .mutex grvLockVv (some (.replicaUpdateVvUnlocked update)) }
  else none

/-- `grv_process_replica_update_vv_unlocked`. -/
def grvProcessReplicaUpdateVvUnlocked (self : ServerId c) (st : GrvServerState c)
    (update : GrvReplicaUpdate c) : Option (GrvOutcome c) :=
  let queue := st.replicaUpdateQueues update.sourceReplica
  (replicaUpdateDequeue (grvUpdateRules self) st.store queue update).map
    (grvReplicaUpdateOutcome st update.sourceReplica)

/-- `grv_process_heartbeat`. -/
def grvProcessHeartbeat (st : GrvServerState c) (heartbeat : GrvHeartbeat c) :
    Option (GrvOutcome c) :=
  some { state := st, cont := .lock .mutex grvLockVv (.heartbeatLocked heartbeat) }

/-- `grv_process_heartbeat_locked`. -/
def grvProcessHeartbeatLocked (st : GrvServerState c) (heartbeat : GrvHeartbeat c) :
    Option (GrvOutcome c) :=
  some
    { state := { st with
        versionVector := if st.versionVector heartbeat.replica < heartbeat.time then
            Function.update st.versionVector heartbeat.replica heartbeat.time
          else st.versionVector }
      cont := .unlock .mutex grvLockVv none }

/-- `grv_send_heartbeat`. -/
def grvSendHeartbeat (self : ServerId c) (st : GrvServerState c) (sendTime : Bool) :
    List (GrvOut c) :=
  (otherReplicas self).map fun s =>
    .toServer s (.heartbeat ⟨self.1, if sendTime then st.clock else 0⟩)

/-- `grv_process_clock_tick_unlocked`. -/
def grvProcessClockTickUnlocked (self : ServerId c) (st : GrvServerState c) (sendTime : Bool) :
    Option (GrvOutcome c) :=
  some { state := st
         outs := grvSendHeartbeat self st sendTime ++ [.self c.clockInterval .clockTick] }

/-- `grv_process_clock_tick`. -/
def grvProcessClockTick (self : ServerId c) (st : GrvServerState c) : Option (GrvOutcome c) :=
  if st.versionVector self.1 + c.clockInterval ≤ st.clock then
    some { state := st, cont := .lock .mutex grvLockVv .clockTickLocked }
  else grvProcessClockTickUnlocked self st false

/-- `grv_process_clock_tick_locked`. -/
def grvProcessClockTickLocked (self : ServerId c) (st : GrvServerState c) :
    Option (GrvOutcome c) :=
  some { state := { st with
           versionVector := Function.update st.versionVector self.1 st.clock }
         cont := .unlock .mutex grvLockVv (some (.clockTickUnlocked true)) }

/-! ## 6. Read-only transactions -/

/-- The keys of a transaction that a partition holds, with their places. -/
def grvSliceKeys (self : ServerId c) (keys : List Key) (p : Partition c) : List (ℕ × Key) :=
  (keys.mapIdx fun k key => (k, key)).filter fun x => lpidForKey self x.2 = (self.1, p)

/-- The request for the slice that a partition holds. -/
def grvSliceRequest (self : ServerId c) (st : GrvServerState c) (request : GrvRotxRequest c)
    (p : Partition c) : GrvSliceRequest c where
  fromLpid := self
  snapshotTime := if request.dependencyTime < st.clock then st.clock else request.dependencyTime
  rotxId := ptrArrayFree st.rotxStates
  keys := grvSliceKeys self request.keys p
  gstVector := st.gstVector

/-- `grv_process_rotx_request_unlocked`. -/
def grvProcessRotxRequestUnlocked (self : ServerId c) (st : GrvServerState c)
    (request : GrvRotxRequest c) : Option (GrvOutcome c) :=
  let rotx : GrvRotxState c :=
    { client := request.client, dependencyVector := fun _ => 0
      values := List.replicate request.keys.length 0, receivedValues := 0
      keys := request.keys, reads := [] }
  some
    { state := { st with rotxStates := ptrArrayPut rotx st.rotxStates }
      outs := (List.finRange c.numPartitions).filterMap fun p =>
        if grvSliceKeys self request.keys p = [] then none
        else some (.toServer (self.1, p) (.sliceRequest (grvSliceRequest self st request p))) }

/-- `grv_process_rotx_request`. -/
def grvProcessRotxRequest (self : ServerId c) (st : GrvServerState c)
    (request : GrvRotxRequest c) : Option (GrvOutcome c) :=
  if grvGstVectorNeedUpdate st request.gstVector then
    some { state := st, cont := .lock .mutex grvLockGsv (.rotxRequestLocked request) }
  else grvProcessRotxRequestUnlocked self st request

/-- `grv_process_rotx_request_locked`. -/
def grvProcessRotxRequestLocked (st : GrvServerState c) (request : GrvRotxRequest c) :
    Option (GrvOutcome c) :=
  some { state := grvUpdateGstVector st request.gstVector
         cont := .unlock .mutex grvLockGsv (some (.rotxRequestUnlocked request)) }

/-- `is_value_visible_snapshot`. -/
def grvIsValueVisibleSnapshot (timeVector : TimeVector c) (item : GrvItem c) : Bool :=
  (List.finRange c.numReplicas).all fun i => !decide (timeVector i < item.dependencyVector i)

/-- The vector a slice is read at: `snapshot_vector`. -/
def grvSnapshotVector (self : ServerId c) (st : GrvServerState c) : TimeVector c :=
  Function.update st.gstVector self.1 st.clock

/-- One value of a slice. -/
def grvSliceValue (self : ServerId c) (st : GrvServerState c) (keyId : ℕ) (key : Key) :
    GrvSliceValue c :=
  let item := getValueAt st.store key (grvIsValueVisibleSnapshot (grvSnapshotVector self st))
  { keyId := keyId, value := valueOf item, updateTime := updateTimeOf item
    sourceReplica := sourceReplicaOf c.replica0 item, key := key, read := item }

/-- The answer to the request for a slice. -/
def grvSliceAnswer (self : ServerId c) (st : GrvServerState c) (request : GrvSliceRequest c) :
    GrvSliceResponse c where
  rotxId := request.rotxId
  values := request.keys.map fun x => grvSliceValue self st x.1 x.2

/-- `grv_process_slice_request_unlocked`. -/
def grvProcessSliceRequestUnlocked (self : ServerId c) (st : GrvServerState c)
    (request : GrvSliceRequest c) : Option (GrvOutcome c) :=
  if request.keys.all fun x => ownsKey self x.2 then
    some { state := st
           outs := [.toServer request.fromLpid
             (.sliceResponse (grvSliceAnswer self st request))] }
  else none

/-- `grv_process_slice_request`. -/
def grvProcessSliceRequest (self : ServerId c) (st : GrvServerState c)
    (request : GrvSliceRequest c) : Option (GrvOutcome c) :=
  if st.clock < request.snapshotTime then
    -- wait until the local clock reaches the snapshot time
    some { state := st, outs := [.self (request.snapshotTime - st.clock) (.sliceRequest request)]
           noTime := true }
  else if grvGstVectorNeedUpdate st request.gstVector then
    some { state := st, noTime := true,
           cont := .lock .mutex grvLockGsv (.sliceRequestLocked request) }
  else
    (grvProcessSliceRequestUnlocked self st request).map fun r => { r with noTime := true }

/-- `grv_process_slice_request_locked`. -/
def grvProcessSliceRequestLocked (st : GrvServerState c) (request : GrvSliceRequest c) :
    Option (GrvOutcome c) :=
  some { state := grvUpdateGstVector st request.gstVector
         cont := .unlock .mutex grvLockGsv (some (.sliceRequestUnlocked request)) }

/-- The response to a read-only transaction. -/
def grvRotxAnswer (rotx : GrvRotxState c) : GrvRotxResponse c where
  values := rotx.values
  dependencyVector := rotx.dependencyVector
  keys := rotx.keys
  reads := rotx.reads

/-- `grv_send_rotx_response`. -/
def grvSendRotxResponse (st : GrvServerState c) (rotxId : ℕ) (rotx : GrvRotxState c) :
    GrvOutcome c :=
  { state := { st with rotxStates := ptrArraySet st.rotxStates rotxId none }
    outs := [.toClient rotx.client (.rotxResponse (grvRotxAnswer rotx))] }

/-- What `grv_process_slice_response` does with one value. -/
def grvReceiveValue (rotx : GrvRotxState c) (v : GrvSliceValue c) : GrvRotxState c :=
  { rotx with
    dependencyVector :=
      if rotx.dependencyVector v.sourceReplica < v.updateTime then
        Function.update rotx.dependencyVector v.sourceReplica v.updateTime
      else rotx.dependencyVector
    values := rotx.values.set v.keyId v.value
    reads := v :: rotx.reads }

/-- What it does with all of them. -/
def grvReceiveSlice (rotx : GrvRotxState c) (slice : GrvSliceResponse c) : GrvRotxState c :=
  { slice.values.foldl grvReceiveValue rotx with
    receivedValues := rotx.receivedValues + slice.values.length }

/-- `grv_process_slice_response`. -/
def grvProcessSliceResponse (st : GrvServerState c) (slice : GrvSliceResponse c) :
    Option (GrvOutcome c) :=
  match ptrArrayGet st.rotxStates slice.rotxId with
  | none => none
  | some rotx =>
    let rotx := grvReceiveSlice rotx slice
    let st := { st with rotxStates := ptrArraySet st.rotxStates slice.rotxId (some rotx) }
    if rotx.receivedValues = rotx.values.length then
      some (grvSendRotxResponse st slice.rotxId rotx)
    else some { state := st }

/-! ## 7. The dispatcher of a server -/

/-- `grv_process_event`.  An event of a kind only clients get is not handled. -/
def grvProcessEvent (self : ServerId c) (st : GrvServerState c) :
    GrvEvent c → Option (GrvOutcome c)
  | .getRequest request => grvProcessGetRequest self st request
  | .forwardedGetRequestLocked request => grvProcessForwardedGetRequestLocked st request
  | .getRequestLocked request => grvProcessGetRequestLocked st request
  | .getRequestUnlocked request => grvProcessGetRequestUnlocked self st request
  | .getResponse response => grvProcessGetResponse st response
  | .putRequest request => grvProcessPutRequest self st request
  | .putRequestLocked id => grvProcessPutRequestLocked self st id
  | .putRequestUnlocked id => grvProcessPutRequestUnlocked self st id
  | .putResponse response => grvProcessPutResponse st response
  | .replicaUpdate update => grvProcessReplicaUpdate self st update
  | .replicaUpdateVvLocked update => grvProcessReplicaUpdateVvLocked self st update
  | .replicaUpdateVvUnlocked update => grvProcessReplicaUpdateVvUnlocked self st update
  | .lstFromLeaf leafLst => grvProcessLstFromLeaf self st leafLst
  | .lstFromLeafRootLocked => grvProcessLstFromLeafRootLocked st
  | .lstFromLeafRootUnlocked => grvProcessLstFromLeafRootUnlocked self st
  | .startGstComputation => grvProcessStartGstComputation self st
  | .gstFromRoot rootGst => grvProcessGstFromRoot self st rootGst
  | .gstFromRootLocked rootGst => grvProcessGstFromRootLocked st rootGst
  | .gstFromRootUnlocked => grvProcessGstFromRootUnlocked self st
  | .sliceRequest request => grvProcessSliceRequest self st request
  | .sliceRequestLocked request => grvProcessSliceRequestLocked st request
  | .sliceRequestUnlocked request => grvProcessSliceRequestUnlocked self st request
  | .sliceResponse slice => grvProcessSliceResponse st slice
  | .rotxRequest request => grvProcessRotxRequest self st request
  | .rotxRequestLocked request => grvProcessRotxRequestLocked st request
  | .rotxRequestUnlocked request => grvProcessRotxRequestUnlocked self st request
  | .clockTick => grvProcessClockTick self st
  | .clockTickLocked => grvProcessClockTickLocked self st
  | .clockTickUnlocked sendTime => grvProcessClockTickUnlocked self st sendTime
  | .heartbeat heartbeat => grvProcessHeartbeat st heartbeat
  | .heartbeatLocked heartbeat => grvProcessHeartbeatLocked st heartbeat
  | .rotxResponse _ => none
  | .clientTick => none

/-- `server_process_event`: the clocks are set, then the event is dispatched. -/
def grvServerProcessEvent (self : ServerId c) (now : ℚ) (st : GrvServerState c)
    (e : GrvEvent c) : Option (GrvOutcome c) :=
  if st.now ≤ now then
    grvProcessEvent self { st with now := now, clock := c.clock self now } e
  else none

/-! ## 8. The client -/

/-- `client_state_grv_t`, and whether a request is under way (`request_time`). -/
structure GrvClientState (c : Cluster) where
  dependencyVector : TimeVector c
  gstVector : TimeVector c
  requestTime : Option ℚ
  /-- History: the versions the client has read or written, and what they depend on. -/
  past : List (GrvVersion c)

/-- `grv_client_init`. -/
def grvClientInit (c : Cluster) : GrvClientState c := ⟨fun _ => 0, fun _ => 0, none, []⟩

/-- `set_max` on every entry. -/
def setMaxVector (v w : TimeVector c) : TimeVector c := fun i => if v i < w i then w i else v i

/-- `update_dependency_vector`. -/
def grvUpdateDependencyVector (st : GrvClientState c) (dependencyVector : TimeVector c) :
    GrvClientState c :=
  { st with dependencyVector := setMaxVector st.dependencyVector dependencyVector }

/-- `update_times`; no vector is given if the first argument is `NULL`. -/
def grvUpdateTimes (st : GrvClientState c) (gstVector : Option (TimeVector c))
    (dependencyTime : ℚ) (replica : Replica c) : GrvClientState c :=
  { st with
    gstVector := match gstVector with
      | none => st.gstVector
      | some gstVector => setMaxVector st.gstVector gstVector
    dependencyVector :=
      if st.dependencyVector replica < dependencyTime then
        Function.update st.dependencyVector replica dependencyTime
      else st.dependencyVector }

/-- `max_gst_and_dependency_vector`. -/
def grvMaxGstAndDependencyVector (st : GrvClientState c) : TimeVector c := fun i =>
  if st.dependencyVector i < st.gstVector i then st.gstVector i else st.dependencyVector i

/-- `client_begin_request`. -/
def grvClientBeginRequest (st : GrvClientState c) (now : ℚ) : Option (GrvClientState c) :=
  if st.requestTime = none then some { st with requestTime := some now } else none

/-- `client_finish_request`. -/
def grvClientFinishRequest (st : GrvClientState c) : Option (GrvClientState c) :=
  if st.requestTime = none then none else some { st with requestTime := none }

/-- A client begins a request and sends it to its server. -/
def grvClientSend (self : ClientId c) (now : ℚ) (st : GrvClientState c)
    (request : GrvClientState c → GrvEvent c) : Option (GrvClientState c × List (GrvOut c)) :=
  (grvClientBeginRequest st now).map fun st => (st, [.toServer self.server (request st)])

/-- What the workload decides: `grv_client_get_request`, `grv_client_put_request`,
`grv_client_rotx_request` and `client_schedule_tick`. -/
def grvClientDecide (self : ClientId c) (now : ℚ) (st : GrvClientState c) :
    Decision → Option (GrvClientState c × List (GrvOut c))
  | .nothing => some (st, [])
  | .tick delay => if 0 ≤ delay then some (st, [.self delay .clientTick]) else none
  | .get key => grvClientSend self now st fun st => .getRequest
      { client := self, proxy := none, key := key, gstVector := st.gstVector, past := st.past }
  | .put key value => grvClientSend self now st fun st => .putRequest
      { client := self, proxy := none, key := key, value := value
        dependencyVector := grvMaxGstAndDependencyVector st, past := st.past }
  | .rotx keys => grvClientSend self now st fun st => .rotxRequest
      { client := self, dependencyTime := st.dependencyVector self.1, keys := keys
        gstVector := st.gstVector }

/-- `get_response`, up to the call of the workload. -/
def grvGetResponse (st : GrvClientState c) (response : GrvGetResponse c) :
    Option (GrvClientState c) :=
  (grvClientFinishRequest st).map fun st =>
    { grvUpdateTimes st (some response.gstVector) response.updateTimestamp
        response.sourceReplica with
      past := readPast response.key response.read ++ st.past }

/-- `put_response`, up to the call of the workload. -/
def grvPutResponse (st : GrvClientState c) (response : GrvPutResponse c) :
    Option (GrvClientState c) :=
  (grvClientFinishRequest st).map fun st =>
    { grvUpdateTimes st none response.updateTime response.sourceReplica with
      past := response.written :: st.past }

/-- `rotx_response`, up to the call of the workload. -/
def grvRotxResponse (st : GrvClientState c) (response : GrvRotxResponse c) :
    Option (GrvClientState c) :=
  (grvClientFinishRequest st).map fun st =>
    { grvUpdateDependencyVector st response.dependencyVector with
      past := (response.reads.flatMap fun v => readPast v.key v.read) ++ st.past }

/-- `grv_client_protocol_process_event` and `client_tick`, up to the call of the workload. -/
def grvClientReceive (st : GrvClientState c) : GrvEvent c → Option (GrvClientState c)
  | .getResponse response => grvGetResponse st response
  | .putResponse response => grvPutResponse st response
  | .rotxResponse response => grvRotxResponse st response
  | .clientTick => some st
  | _ => none

/-- `client_process_event`: the event is received, then the workload decides. -/
def grvClientProcessEvent (self : ClientId c) (now : ℚ) (decision : Decision)
    (st : GrvClientState c) (e : GrvEvent c) : Option (GrvClientState c × List (GrvOut c)) :=
  match grvClientReceive st e with
  | none => none
  | some st => grvClientDecide self now st decision

/-! ## 9. The program and its initial world -/

/-- Servers and clients of the protocol. -/
def grvProgram (c : Cluster) :
    Program (ServerId c) (ClientId c) (GrvEvent c) (GrvServerState c) (GrvClientState c)
      Decision where
  serve := grvServerProcessEvent
  client := grvClientProcessEvent

/-- The initial world of a simulation of the protocol. -/
def grvWorld (setup : Setup c (GrvEvent c)) :
    World (ServerId c) (ClientId c) (GrvEvent c) (GrvServerState c) (GrvClientState c) :=
  setup.world (grvInitState c) (grvClientInit c) 2 .startGstComputation .clockTick .clientTick

end CCSim
