/-
# What a handler does for the requests of clients (`gr`)

A request passes through many handlers, and most facts about it need to know of each of them which
slot it takes, changes or frees, and what it sends.  `GrWork` says this once, one case for every way
through a handler (`grProcessEvent_work`); handlers that have nothing to do with requests, or only
with the stable time, are two cases.
-/
import CCSim.Gr.Protocol
import CCSim.Lib.Mail
import CCSim.Slots

namespace CCSim

variable {c : Cluster}

/-! ## 1. The slots of a request -/

/-- Events that refer to no request. -/
def GrEvent.Other : GrEvent c → Prop
  | .forwardGetRequestLocked _ => True
  | .replicaUpdate _ => True
  | .replicaUpdateLocked _ => True
  | .replicaUpdateUnlocked _ => True
  | .lstFromLeaf _ => True
  | .lstFromLeafRootLocked => True
  | .lstFromLeafRootUnlocked => True
  | .startGstComputation => True
  | .gstFromRoot _ => True
  | .gstFromRootLocked _ => True
  | .gstFromRootUnlocked _ => True
  | .clockTick => True
  | .clockTickLocked => True
  | .clockTickUnlocked _ => True
  | .heartbeat _ => True
  | .heartbeatLocked _ => True
  | _ => False

/-- The slot that a GET takes, and the one that a PUT takes. -/
def GrGetRequest.state (request : GrGetRequest c) : GrGetState c where
  key := request.key
  gst := request.gst
  client := request.client
  past := request.past
  destination := replyTo request.client request.proxy

def GrPutRequest.state (request : GrPutRequest c) : GrPutState c where
  key := request.key
  value := request.value
  client := request.client
  past := request.past
  destination := replyTo request.client request.proxy
  stamp := none

/-- The slots that a transaction and its snapshot take. -/
def GrGetRotxRequest.state (s : ServerId c) (id : ℕ) (gst : ℚ) (request : GrGetRotxRequest c) :
    GrRotxState c where
  client := request.client
  dependencyTime := request.dependencyTime
  snapshotRequest :=
    { requestId := id, client := .server s, gst := request.gst, keys := request.keys }
  waitingGst := !decide (request.dependencyTime ≤ gst)

def GrGetSnapshotRequest.state (request : GrGetSnapshotRequest c) : GrSnapshotState c where
  client := request.client
  requestId := request.requestId
  updateTime := 0
  gst := request.gst
  time := 0
  keys := request.keys
  values := List.replicate request.keys.length 0
  receivedValues := 0
  reads := []

/-! ## 2. One look at every handler -/

/-- What a server does for requests, handler by handler. -/
inductive GrWork (s : ServerId c) (st : GrServerState c) : GrEvent c → GrOutcome c → Prop
  | other {e : GrEvent c} {r : GrOutcome c} (he : e.Other)
      (hget : r.state.getStates = st.getStates) (hput : r.state.putStates = st.putStates)
      (hsnapshot : r.state.snapshotStates = st.snapshotStates)
      (hrotx : r.state.rotxStates = st.rotxStates) (hnew : ∀ x ∈ r.placed s, x.2.Other) :
      GrWork s st e r
  | wake {e : GrEvent c} {r : GrOutcome c} (he : e.Other) (gst : ℚ)
      (others : List ((ServerId c ⊕ ClientId c) × GrEvent c))
      (hstate : r.state = (grUpdateGst st gst).1)
      (hplaced : r.placed s =
        (grUpdateGst st gst).2.map (fun o => (o.place s, o.event)) ++ others)
      (hothers : ∀ x ∈ others, x.2.Other) : GrWork s st e r
  | getForward {request : GrGetRequest c} {cont : Cont (GrEvent c)}
      (hproxy : request.proxy = none) (hcont : ∀ e ∈ cont.event?, e.Other) :
      GrWork s st (.getRequest request)
        { state := st
          outs := [.toServer (lpidForKey s request.key)
            (.getRequest { request with proxy := some s })]
          cont := cont }
  | getOpen {request : GrGetRequest c} (hkey : lpidForKey s request.key = s) :
      GrWork s st (.getRequest request)
        { state := { st with getStates := ptrArrayPut request.state st.getStates }
          cont := .lock .mutex grLock (.getRequestLocked (ptrArrayFree st.getStates)) }
  | getServe {request : GrGetRequest c} (hkey : lpidForKey s request.key = s) :
      GrWork s st (.getRequest request)
        { state := { st with
            getStates := ptrArraySet (ptrArrayPut request.state st.getStates)
              (ptrArrayFree st.getStates) none }
          outs := [grSend request.state.destination
            (.getResponse (grGetAnswer s st request.state))] }
  | getLocked {id : ℕ} {getState : GrGetState c}
      (hget : ptrArrayGet st.getStates id = some getState) :
      GrWork s st (.getRequestLocked id)
        { state := (grUpdateGst st getState.gst).1
          outs := (grUpdateGst st getState.gst).2
          cont := .unlock .mutex grLock (some (.getRequestUnlocked id)) }
  | getUnlocked {id : ℕ} {getState : GrGetState c}
      (hget : ptrArrayGet st.getStates id = some getState) (hkey : ownsKey s getState.key) :
      GrWork s st (.getRequestUnlocked id)
        { state := { st with getStates := ptrArraySet st.getStates id none }
          outs := [grSend getState.destination (.getResponse (grGetAnswer s st getState))] }
  | getResponse {response : GrGetResponse c} :
      GrWork s st (.getResponse response)
        { state := st, outs := [.toClient response.client (.getResponse response)] }
  | putForward {request : GrPutRequest c} (hproxy : request.proxy = none) :
      GrWork s st (.putRequest request)
        { state := st
          outs := [.toServer (lpidForKey s request.key)
            (.putRequest { request with proxy := some s })] }
  | putDefer {request : GrPutRequest c} (hlt : st.clock < request.dependencyTime) :
      GrWork s st (.putRequest request)
        { state := st
          outs := [.self (request.dependencyTime - st.clock) (.putRequest request)] }
  | putOpen {request : GrPutRequest c} (hkey : lpidForKey s request.key = s)
      (hle : request.dependencyTime ≤ st.clock) :
      GrWork s st (.putRequest request)
        { state := { st with putStates := ptrArrayPut request.state st.putStates }
          cont := .lock .mutex grLock (.putRequestLocked (ptrArrayFree st.putStates)) }
  | putLocked {id : ℕ} {putState : GrPutState c}
      (hput : ptrArrayGet st.putStates id = some putState) (hkey : ownsKey s putState.key) :
      GrWork s st (.putRequestLocked id)
        (grPutOutcome s st id putState (grPutValue st putState.key (grPutItem s st putState)))
  | putUnlocked {id : ℕ} {putState : GrPutState c} {stamp : GrPutStamp c}
      (hput : ptrArrayGet st.putStates id = some putState) (hstamp : putState.stamp = some stamp) :
      GrWork s st (.putRequestUnlocked id)
        { state := { st with putStates := ptrArraySet st.putStates id none }
          outs := grSend putState.destination (.putResponse (grPutAnswer s putState stamp)) ::
            if stamp.discarded then []
            else grReplicateValue s (grPutUpdate s putState stamp) }
  | putResponse {response : GrPutResponse c} :
      GrWork s st (.putResponse response)
        { state := st, outs := [.toClient response.client (.putResponse response)] }
  | rotxRequest {request : GrGetRotxRequest c} :
      GrWork s st (.rotxRequest request)
        { state := { st with
            rotxStates := ptrArrayPut (request.state s (ptrArrayFree st.rotxStates) st.gst)
              st.rotxStates }
          outs := if !decide (request.dependencyTime ≤ st.gst) then []
            else [grSendRotxSnapshotRequest
              (request.state s (ptrArrayFree st.rotxStates) st.gst)] }
  | snapshotRequest {request : GrGetSnapshotRequest c} :
      GrWork s st (.getSnapshotRequest request)
        { state := { st with snapshotStates := ptrArrayPut request.state st.snapshotStates }
          cont := .lock .mutex grLock (.getSnapshotRequestLocked (ptrArrayFree st.snapshotStates)) }
  | snapshotLocked {id : ℕ} {snapshot : GrSnapshotState c}
      (hget : ptrArrayGet st.snapshotStates id = some snapshot) :
      GrWork s st (.getSnapshotRequestLocked id)
        { state := { (grUpdateGst st snapshot.gst).1 with
            snapshotStates := ptrArraySet (grUpdateGst st snapshot.gst).1.snapshotStates id
              (some { snapshot with gst := 0, time := (grUpdateGst st snapshot.gst).1.gst }) }
          outs := (grUpdateGst st snapshot.gst).2
          cont := .unlock .mutex grLock (some (.getSnapshotRequestUnlocked id)) }
  | snapshotUnlocked {id : ℕ} {snapshot : GrSnapshotState c}
      (hget : ptrArrayGet st.snapshotStates id = some snapshot) :
      GrWork s st (.getSnapshotRequestUnlocked id)
        { state := st, outs := grSliceRequests s id snapshot }
  | sliceRequest {request : GrSliceRequest c} (hneed : st.gst < request.snapshotTime) :
      GrWork s st (.sliceRequest request)
        { state := st, cont := .lock .mutex grLock (.sliceRequestLocked request) }
  | sliceLocked {request : GrSliceRequest c} :
      GrWork s st (.sliceRequestLocked request)
        { state := (grUpdateGst st request.snapshotTime).1
          outs := (grUpdateGst st request.snapshotTime).2
          cont := .unlock .mutex grLock (some (.sliceRequestUnlocked request)) }
  | sliceServe {e : GrEvent c} {request : GrSliceRequest c}
      (he : e = .sliceRequestUnlocked request ∨
        e = .sliceRequest request ∧ request.snapshotTime ≤ st.gst)
      (hkey : ownsKey s request.key) :
      GrWork s st e
        { state := st
          outs := [.toServer request.fromLpid (.sliceResponse (grSliceAnswer st request))] }
  | sliceResponse {slice : GrSliceResponse c} :
      GrWork s st (.sliceResponse slice)
        { state := st, cont := .lock .mutex grLock (.sliceResponseLocked slice) }
  | receiveLocked {slice : GrSliceResponse c} :
      GrWork s st (.sliceResponseLocked slice)
        { state := (grUpdateGst st slice.gst).1
          outs := (grUpdateGst st slice.gst).2
          cont := .unlock .mutex grLock (some (.sliceResponseUnlocked slice)) }
  | receive {e : GrEvent c} {slice : GrSliceResponse c} {snapshot : GrSnapshotState c}
      (he : e = .sliceResponse slice ∨ e = .sliceResponseUnlocked slice)
      (hget : ptrArrayGet st.snapshotStates slice.snapshotId = some snapshot)
      (hmore : snapshot.receivedValues + 1 ≠ snapshot.keys.length) :
      GrWork s st e
        { state := { st with
            snapshotStates := ptrArraySet st.snapshotStates slice.snapshotId
              (some (grReceiveSlice snapshot slice)) } }
  | receiveLast {e : GrEvent c} {slice : GrSliceResponse c} {snapshot : GrSnapshotState c}
      {rotx : GrRotxState c}
      (he : e = .sliceResponse slice ∨ e = .sliceResponseUnlocked slice)
      (hget : ptrArrayGet st.snapshotStates slice.snapshotId = some snapshot)
      (hlast : snapshot.receivedValues + 1 = snapshot.keys.length)
      (hrotx : ptrArrayGet st.rotxStates snapshot.requestId = some rotx) :
      GrWork s st e
        { state := { st with
            snapshotStates := ptrArraySet st.snapshotStates slice.snapshotId none
            rotxStates := ptrArraySet st.rotxStates snapshot.requestId none }
          outs := [.toClient rotx.client (.rotxResponse (grRotxAnswer rotx
            (grSnapshotAnswer (grReceiveSlice snapshot slice))))] }
  | abroad {e : GrEvent c} {r : GrOutcome c} {slice : GrSliceResponse c}
      {snapshot : GrSnapshotState c}
      (he : e = .sliceResponse slice ∨ e = .sliceResponseUnlocked slice)
      (hget : ptrArrayGet st.snapshotStates slice.snapshotId = some snapshot)
      (hclient : snapshot.client ≠ .server s) : GrWork s st e r

theorem grSendGst_other (s : ServerId c) (rootGst : GrGstFromRoot) {st : GrServerState c} :
    ∀ x ∈ ({ state := st, outs := grSendGst s rootGst } : GrOutcome c).placed s, x.2.Other := by
  intro x hx
  rcases Outcome.mem_placed.mp hx with ⟨o, ho, rfl⟩ | ⟨_, ⟨⟩, -⟩
  obtain ⟨p, -, rfl⟩ := List.mem_map.mp ho
  trivial

theorem grClockTick_other (s : ServerId c) (st : GrServerState c) (sendTime : Bool) :
    ∀ x ∈ ({ state := st
             outs := grSendHeartbeat s st sendTime ++ [.self c.clockInterval .clockTick] } :
      GrOutcome c).placed s, x.2.Other := by
  intro x hx
  rcases Outcome.mem_placed.mp hx with ⟨o, ho, rfl⟩ | ⟨_, ⟨⟩, -⟩
  rcases List.mem_append.mp ho with ho | ho
  · obtain ⟨p, -, rfl⟩ := List.mem_map.mp ho
    trivial
  · obtain rfl := List.mem_singleton.mp ho
    trivial

theorem grReplicaUpdateOutcome_other (s : ServerId c) (st : GrServerState c) (source : Replica c)
    (r : List (GrReplicaUpdate c) × Option (GrReplicaUpdate c)) :
    ∀ x ∈ (grReplicaUpdateOutcome st source r).placed s, x.2.Other := by
  intro x hx
  obtain ⟨queue, n⟩ := r
  cases n with
  | none => cases hx
  | some update =>
    obtain rfl := List.mem_singleton.mp hx
    trivial

/-- A slice that is received is one of several, or the last one. -/
theorem grReceive_work {s : ServerId c} {st : GrServerState c} {e : GrEvent c}
    {slice : GrSliceResponse c} (he : e = .sliceResponse slice ∨ e = .sliceResponseUnlocked slice)
    {r : GrOutcome c} (h : grProcessSliceResponseUnlocked s st slice = some r) :
    GrWork s st e r := by
  unfold grProcessSliceResponseUnlocked at h
  split at h
  · cases h
  · rename_i snapshot hget
    dsimp only at h
    split at h
    · rename_i hlast
      unfold grSendSnapshotResponse at h
      split at h
      · unfold grProcessRotxSnapshotResponse at h
        split at h
        · cases h
        · rename_i rotx hrotx
          cases h
          exact .receiveLast he hget hlast hrotx
      · rename_i hclient
        exact .abroad he hget hclient
    · rename_i hmore
      cases h
      exact .receive he hget hmore

/-- One look at every handler. -/
theorem grProcessEvent_work {s : ServerId c} {st : GrServerState c} {e : GrEvent c}
    {r : GrOutcome c} (h : grProcessEvent s st e = some r) : GrWork s st e r := by
  cases e with
  | getRequest request =>
    simp only [grProcessEvent, grProcessGetRequest] at h
    split at h
    · split at h
      · cases h
      · rename_i hproxy
        cases h
        refine .getForward (not_not.mp hproxy) ?_
        split <;> rintro _ ⟨⟩
        trivial
    · rename_i hkey
      split at h
      · cases h
        exact .getOpen (not_not.mp hkey)
      · unfold grProcessGetRequestUnlocked at h
        rw [ptrArrayPut_get, if_pos rfl] at h
        dsimp only at h
        split at h
        · cases h
          exact .getServe (not_not.mp hkey)
        · cases h
  | getRequestLocked id =>
    simp only [grProcessEvent, grProcessGetRequestLocked] at h
    split at h
    · cases h
    · rename_i hget
      cases h
      exact .getLocked hget
  | getRequestUnlocked id =>
    simp only [grProcessEvent, grProcessGetRequestUnlocked] at h
    split at h
    · cases h
    · rename_i hget
      split at h
      · rename_i hkey
        cases h
        exact .getUnlocked hget hkey
      · cases h
  | getResponse response =>
    cases h
    exact .getResponse
  | putRequest request =>
    simp only [grProcessEvent, grProcessPutRequest] at h
    split at h
    · split at h
      · cases h
      · rename_i hproxy
        cases h
        exact .putForward (not_not.mp hproxy)
    · rename_i hkey
      split at h
      · rename_i hlt
        cases h
        exact .putDefer hlt
      · rename_i hle
        cases h
        exact .putOpen (not_not.mp hkey) (not_lt.mp hle)
  | putRequestLocked id =>
    simp only [grProcessEvent, grProcessPutRequestLocked] at h
    split at h
    · cases h
    · rename_i hput
      split at h
      · rename_i hkey
        cases h
        exact .putLocked hput hkey
      · cases h
  | putRequestUnlocked id =>
    simp only [grProcessEvent, grProcessPutRequestUnlocked] at h
    split at h
    · cases h
    · rename_i hput
      split at h
      · cases h
      · rename_i hstamp
        cases h
        exact .putUnlocked hput hstamp
  | putResponse response =>
    cases h
    exact .putResponse
  | rotxRequest request =>
    cases h
    exact .rotxRequest
  | getSnapshotRequest request =>
    cases h
    exact .snapshotRequest
  | getSnapshotRequestLocked id =>
    simp only [grProcessEvent, grProcessGetSnapshotRequestLocked] at h
    split at h
    · cases h
    · rename_i hget
      cases h
      exact .snapshotLocked hget
  | getSnapshotRequestUnlocked id =>
    simp only [grProcessEvent, grProcessGetSnapshotRequestUnlocked] at h
    split at h
    · cases h
    · rename_i hget
      cases h
      exact .snapshotUnlocked hget
  | sliceRequest request =>
    simp only [grProcessEvent, grProcessSliceRequest, grGstNeedUpdate, decide_eq_true_eq] at h
    split at h
    · rename_i hneed
      cases h
      exact .sliceRequest hneed
    · rename_i hle
      unfold grProcessSliceRequestUnlocked at h
      split at h
      · rename_i hkey
        cases h
        exact .sliceServe (.inr ⟨rfl, not_lt.mp hle⟩) hkey
      · cases h
  | sliceRequestLocked request =>
    cases h
    exact .sliceLocked
  | sliceRequestUnlocked request =>
    simp only [grProcessEvent, grProcessSliceRequestUnlocked] at h
    split at h
    · rename_i hkey
      cases h
      exact .sliceServe (.inl rfl) hkey
    · cases h
  | sliceResponse slice =>
    simp only [grProcessEvent, grProcessSliceResponse] at h
    split at h
    · cases h
      exact .sliceResponse
    · exact grReceive_work (.inl rfl) h
  | sliceResponseLocked slice =>
    cases h
    exact .receiveLocked
  | sliceResponseUnlocked slice => exact grReceive_work (.inr rfl) h
  | forwardGetRequestLocked request =>
    cases h
    exact .wake trivial request.gst [] rfl rfl (List.forall_mem_nil _)
  | lstFromLeafRootLocked =>
    cases h
    exact .wake trivial st.minLst [(.inl s, .lstFromLeafRootUnlocked)] rfl rfl
      (List.forall_mem_singleton.mpr trivial)
  | gstFromRootLocked rootGst =>
    cases h
    exact .wake trivial rootGst.gst [(.inl s, .gstFromRootUnlocked rootGst)] rfl rfl
      (List.forall_mem_singleton.mpr trivial)
  | startGstComputation =>
    simp only [grProcessEvent, grProcessStartGstComputation] at h
    split at h
    · split at h
      · cases h
        refine .wake trivial (st.versionVector c.replica0) [(.inl s, .startGstComputation)] rfl ?_
          (List.forall_mem_singleton.mpr trivial)
        simp only [Outcome.placed, List.map_append]
        exact List.append_nil _
      · cases h
        refine .other trivial rfl rfl rfl rfl fun x hx => ?_
        obtain rfl := List.mem_singleton.mp hx
        trivial
    · cases h
  | gstFromRootUnlocked rootGst =>
    simp only [grProcessEvent, grProcessGstFromRootUnlocked] at h
    split at h
    · cases h
      refine .other trivial rfl rfl rfl rfl fun x hx => ?_
      obtain rfl := List.mem_singleton.mp hx
      trivial
    · cases h
      exact .other trivial rfl rfl rfl rfl (grSendGst_other s rootGst)
  | lstFromLeafRootUnlocked =>
    cases h
    exact .other trivial rfl rfl rfl rfl (grSendGst_other s ⟨st.gst⟩)
  | clockTickUnlocked sendTime =>
    cases h
    exact .other trivial rfl rfl rfl rfl (grClockTick_other s st sendTime)
  | clockTick =>
    simp only [grProcessEvent, grProcessClockTick] at h
    split at h
    · cases h
      refine .other trivial rfl rfl rfl rfl fun x hx => ?_
      obtain rfl := List.mem_singleton.mp hx
      trivial
    · cases h
      exact .other trivial rfl rfl rfl rfl (grClockTick_other s st false)
  | clockTickLocked =>
    simp only [grProcessEvent, grProcessClockTickLocked] at h
    split at h
    all_goals
      cases h
      refine .other trivial rfl rfl rfl rfl fun x hx => ?_
      obtain rfl := List.mem_singleton.mp hx
      trivial
  | lstFromLeaf leafLst =>
    simp only [grProcessEvent, grProcessLstFromLeaf, grSendLstToParent] at h
    split at h
    · cases h
    · split at h
      · by_cases hroot : s.2.val = 0
        · rw [if_pos hroot, Option.some.injEq] at h
          subst h
          refine .other trivial rfl rfl rfl rfl fun x hx => ?_
          obtain rfl := List.mem_singleton.mp hx
          trivial
        · rw [if_neg hroot, if_neg hroot, Option.some.injEq] at h
          subst h
          refine .other trivial rfl rfl rfl rfl fun x hx => ?_
          obtain rfl := List.mem_singleton.mp hx
          trivial
      · cases h
        exact .other trivial rfl rfl rfl rfl (List.forall_mem_nil _)
  | gstFromRoot rootGst =>
    cases h
    refine .other trivial rfl rfl rfl rfl fun x hx => ?_
    obtain rfl := List.mem_singleton.mp hx
    trivial
  | heartbeat heartbeat =>
    simp only [grProcessEvent, grProcessHeartbeat, Option.some.injEq] at h
    subst h
    refine .other trivial rfl rfl rfl rfl fun x hx => ?_
    dsimp only [Outcome.placed] at hx
    split at hx
    · obtain rfl := List.mem_singleton.mp hx
      trivial
    · cases hx
  | heartbeatLocked heartbeat =>
    cases h
    exact .other trivial rfl rfl rfl rfl (List.forall_mem_nil _)
  | replicaUpdate update =>
    simp only [grProcessEvent, grProcessReplicaUpdate, Option.map_eq_some_iff] at h
    obtain ⟨⟨queue, n⟩, -, rfl⟩ := h
    exact .other trivial rfl rfl rfl rfl
      (grReplicaUpdateOutcome_other s st update.sourceReplica (queue, n))
  | replicaUpdateUnlocked update =>
    simp only [grProcessEvent, grProcessReplicaUpdateUnlocked, Option.map_eq_some_iff] at h
    obtain ⟨⟨queue, n⟩, -, rfl⟩ := h
    exact .other trivial rfl rfl rfl rfl
      (grReplicaUpdateOutcome_other s st update.sourceReplica (queue, n))
  | replicaUpdateLocked update =>
    simp only [grProcessEvent, grProcessReplicaUpdateLocked] at h
    split at h
    · cases h
      refine .other trivial rfl rfl rfl rfl fun x hx => ?_
      obtain rfl := List.mem_singleton.mp hx
      trivial
    · cases h
  | getSnapshotResponse => cases h
  | rotxResponse => cases h
  | clientTick => cases h

/-! ## 3. What an update of the stable time does to the slots -/

section UpdateGst

variable (st : GrServerState c) (gst : ℚ)

@[simp]
theorem grUpdateGst_getStates : (grUpdateGst st gst).1.getStates = st.getStates := by
  unfold grUpdateGst grRotxOnGstUpdated
  split <;> rfl

@[simp]
theorem grUpdateGst_putStates : (grUpdateGst st gst).1.putStates = st.putStates := by
  unfold grUpdateGst grRotxOnGstUpdated
  split <;> rfl

@[simp]
theorem grUpdateGst_snapshotStates : (grUpdateGst st gst).1.snapshotStates = st.snapshotStates := by
  unfold grUpdateGst grRotxOnGstUpdated
  split <;> rfl

@[simp]
theorem grUpdateGst_store : (grUpdateGst st gst).1.store = st.store := by
  unfold grUpdateGst grRotxOnGstUpdated
  split <;> rfl

/-- The new stable time is the later one. -/
theorem grUpdateGst_gst : (grUpdateGst st gst).1.gst = max st.gst gst := by
  unfold grUpdateGst grRotxOnGstUpdated
  split
  · rename_i hlt
    exact (max_eq_right hlt.le).symm
  · rename_i hle
    exact (max_eq_left (not_lt.mp hle)).symm

variable {st gst}

/-- A transaction stays as it is, or is woken up. -/
theorem grUpdateGst_rotx {id : ℕ} {rotx' : GrRotxState c}
    (h : ptrArrayGet (grUpdateGst st gst).1.rotxStates id = some rotx') :
    ∃ rotx, ptrArrayGet st.rotxStates id = some rotx ∧
      (rotx' = rotx ∨ rotx' = { rotx with waitingGst := false } ∧ rotx.dependencyTime < gst) := by
  unfold grUpdateGst grRotxOnGstUpdated at h
  split at h
  · rw [ptrArrayGet_map] at h
    obtain ⟨rotx, hget, rfl⟩ := Option.map_eq_some_iff.mp h
    refine ⟨rotx, hget, ?_⟩
    unfold grRotxGstUpdateCallback
    split
    · rename_i hwake
      exact .inr ⟨rfl, hwake.2⟩
    · exact .inl rfl
  · exact ⟨rotx', h, .inl rfl⟩

/-- What is sent are the requests for snapshots of the transactions that are woken up. -/
theorem grUpdateGst_out {o : GrOut c} (h : o ∈ (grUpdateGst st gst).2) :
    ∃ id rotx, ptrArrayGet st.rotxStates id = some rotx ∧ o = grSendRotxSnapshotRequest rotx := by
  unfold grUpdateGst grRotxOnGstUpdated at h
  split at h
  · obtain ⟨x, hx, ho⟩ := List.mem_flatMap.mp h
    cases x with
    | none => cases ho
    | some rotx =>
      obtain ⟨id, hid⟩ := List.getElem?_of_mem hx
      refine ⟨id, rotx, by rw [ptrArrayGet, hid]; rfl, ?_⟩
      simp only [grRotxGstUpdateCallback] at ho
      split at ho
      · exact List.mem_singleton.mp ho
      · cases ho
  · cases h

end UpdateGst

/-! ## 4. What a client asks for -/

/-- What a client sends in the state `st`. -/
inductive GrAsk (k : ClientId c) (st : GrClientState c) :
    (ServerId c ⊕ ClientId c) × GrEvent c → Prop
  | tick : GrAsk k st (.inr k, .clientTick)
  | get (key : Key) : GrAsk k st (.inl k.server, .getRequest
      { client := k, proxy := none, key := key, gst := st.gst, past := st.past })
  | put (key : Key) (value : Value) : GrAsk k st (.inl k.server, .putRequest
      { client := k, proxy := none, key := key, value := value
        dependencyTime := st.dependencyTime, past := st.past })
  | rotx (keys : List Key) : GrAsk k st (.inl k.server, .rotxRequest
      { client := k, dependencyTime := st.dependencyTime, keys := keys, gst := st.gst })

/-- A request does not change what the client knows. -/
theorem grClientDecide_asks {k : ClientId c} {t : ℚ} {st : GrClientState c} {decision : Decision}
    {r : GrClientState c × List (GrOut c)} (h : grClientDecide k t st decision = some r) :
    (∃ requestTime, r.1 = { st with requestTime := requestTime }) ∧
      ∀ x ∈ placedOfClient k r.2, GrAsk k r.1 x := by
  have hsend : ∀ {request : GrClientState c → GrEvent c} {r : GrClientState c × List (GrOut c)},
      grClientSend k t st request = some r →
      (∀ st, GrAsk k st (.inl k.server, request st)) →
        (∃ requestTime, r.1 = { st with requestTime := requestTime }) ∧
          ∀ x ∈ placedOfClient k r.2, GrAsk k r.1 x := by
    intro request r h hask
    unfold grClientSend at h
    obtain ⟨st', hst, rfl⟩ := Option.map_eq_some_iff.mp h
    unfold grClientBeginRequest at hst
    split at hst
    · cases hst
      exact ⟨⟨_, rfl⟩, List.forall_mem_singleton.mpr (hask _)⟩
    · cases hst
  cases decision with
  | nothing =>
    cases h
    exact ⟨⟨_, rfl⟩, List.forall_mem_nil _⟩
  | tick delay =>
    simp only [grClientDecide] at h
    split at h <;> cases h
    exact ⟨⟨_, rfl⟩, List.forall_mem_singleton.mpr .tick⟩
  | get key => exact hsend h fun _ => .get key
  | put key value => exact hsend h fun _ => .put key value
  | rotx keys => exact hsend h fun _ => .rotx keys

/-- What a client learns from an event: the answer to its request. -/
inductive GrLearn (k : ClientId c) (st : GrClientState c) : GrEvent c → GrClientState c → Prop
  | get (response : GrGetResponse c) : GrLearn k st (.getResponse response)
      { grUpdateTimes st response.gst response.updateTimestamp with
        requestTime := none, past := readPast response.key response.read ++ st.past }
  | put (response : GrPutResponse c) : GrLearn k st (.putResponse response)
      { grUpdateTimes st 0 response.updateTimestamp with
        requestTime := none, past := response.written :: st.past }
  | rotx (response : GrGetRotxResponse c) : GrLearn k st (.rotxResponse response)
      { grUpdateTimes st response.gst response.updateTimestamp with
        requestTime := none
        past := (response.reads.flatMap fun r => readPast r.key r.item) ++ st.past }
  | tick : GrLearn k st .clientTick st

theorem grClientReceive_learns {k : ClientId c} {st st' : GrClientState c} {e : GrEvent c}
    (h : grClientReceive st e = some st') : GrLearn k st e st' := by
  have hfinish : ∀ {st st' : GrClientState c}, grClientFinishRequest st = some st' →
      st' = { st with requestTime := none } := by
    intro st st' h
    unfold grClientFinishRequest at h
    split at h <;> cases h
    rfl
  cases e with
  | getResponse response =>
    obtain ⟨st₁, hst, rfl⟩ := Option.map_eq_some_iff.mp h
    obtain rfl := hfinish hst
    exact .get response
  | putResponse response =>
    obtain ⟨st₁, hst, rfl⟩ := Option.map_eq_some_iff.mp h
    obtain rfl := hfinish hst
    exact .put response
  | rotxResponse response =>
    obtain ⟨st₁, hst, rfl⟩ := Option.map_eq_some_iff.mp h
    obtain rfl := hfinish hst
    exact .rotx response
  | clientTick =>
    cases h
    exact .tick
  | _ => cases h

/-- A client learns, then asks. -/
theorem grClientProcessEvent_asks {k : ClientId c} {t : ℚ} {decision : Decision}
    {st : GrClientState c} {e : GrEvent c} {r : GrClientState c × List (GrOut c)}
    (h : grClientProcessEvent k t decision st e = some r) :
    ∃ st', GrLearn k st e st' ∧ (∃ requestTime, r.1 = { st' with requestTime := requestTime }) ∧
      ∀ x ∈ placedOfClient k r.2, GrAsk k r.1 x := by
  unfold grClientProcessEvent at h
  split at h
  · cases h
  · rename_i st' hst
    exact ⟨st', grClientReceive_learns hst, grClientDecide_asks h⟩

/-- A client sends at most one request, and only if none is under way. -/
theorem grClientProcessEvent_sends {k : ClientId c} {t : ℚ} {decision : Decision}
    {st : GrClientState c} {e : GrEvent c} {r : GrClientState c × List (GrOut c)}
    (h : grClientProcessEvent k t decision st e = some r) :
    r.2 = [] ∨ (∃ delay, r.2 = [.self delay .clientTick]) ∨
      ∃ e' st', r.2 = [.toServer k.server e'] ∧ GrLearn k st e st' ∧ st'.requestTime = none := by
  unfold grClientProcessEvent at h
  split at h
  · cases h
  · rename_i st' hst
    have hsend : ∀ {request : GrClientState c → GrEvent c},
        grClientSend k t st' request = some r →
          ∃ e', r.2 = [.toServer k.server e'] ∧ st'.requestTime = none := by
      intro request h
      unfold grClientSend grClientBeginRequest at h
      split at h
      · rename_i hnone
        cases h
        exact ⟨_, rfl, hnone⟩
      · cases h
    have hasks : (∃ e', r.2 = [.toServer k.server e'] ∧ st'.requestTime = none) →
        ∃ e' st', r.2 = [.toServer k.server e'] ∧ GrLearn k st e st' ∧ st'.requestTime = none :=
      fun ⟨e', hout, hnone⟩ => ⟨e', st', hout, grClientReceive_learns hst, hnone⟩
    cases decision with
    | nothing =>
      cases h
      exact .inl rfl
    | tick delay =>
      simp only [grClientDecide] at h
      split at h <;> cases h
      exact .inr (.inl ⟨delay, rfl⟩)
    | get key => exact .inr (.inr (hasks (hsend h)))
    | put key value => exact .inr (.inr (hasks (hsend h)))
    | rotx keys => exact .inr (.inr (hasks (hsend h)))

end CCSim
