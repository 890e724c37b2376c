/-
# What a handler does for the requests of clients (`grv`)

The counterpart of `Gr/Work.lean`.  A GET takes no slot here: its request travels along with the
lock.  A PUT takes a slot of `put_states`, and a transaction one of `rotx_states`, which it keeps
until all of its values are there.  `GrvWork` has one case for every way through a handler
(`grvProcessEvent_work`).
-/
import CCSim.Grv.Versions
import CCSim.Lib.Mail
import CCSim.Slots

namespace CCSim

variable {c : Cluster}

/-! ## 1. The slots of a request -/

/-- Events that refer to no request. -/
def GrvEvent.Other : GrvEvent c → Prop
  | .forwardedGetRequestLocked _ => True
  | .replicaUpdate _ => True
  | .replicaUpdateVvLocked _ => True
  | .replicaUpdateVvUnlocked _ => True
  | .lstFromLeaf _ => True
  | .lstFromLeafRootLocked => True
  | .lstFromLeafRootUnlocked => True
  | .startGstComputation => True
  | .gstFromRoot _ => True
  | .gstFromRootLocked _ => True
  | .gstFromRootUnlocked => True
  | .clockTick => True
  | .clockTickLocked => True
  | .clockTickUnlocked _ => True
  | .heartbeat _ => True
  | .heartbeatLocked _ => True
  | _ => False

/-- The slot that a PUT takes. -/
def GrvPutRequest.state (request : GrvPutRequest c) : GrvPutState c where
  key := request.key
  value := request.value
  client := request.client
  dependencyVector := request.dependencyVector
  past := request.past
  destination := replyTo request.client request.proxy
  stamp := none

/-- The slot that a transaction takes. -/
def GrvRotxRequest.state (request : GrvRotxRequest c) : GrvRotxState c where
  client := request.client
  dependencyVector _ := 0
  values := List.replicate request.keys.length 0
  receivedValues := 0
  keys := request.keys
  reads := []

/-- The requests for slices of a transaction. -/
def grvSliceRequests (s : ServerId c) (st : GrvServerState c) (request : GrvRotxRequest c) :
    List (GrvOut c) :=
  (List.finRange c.numPartitions).filterMap fun p =>
    if grvSliceKeys s request.keys p = [] then none
    else some (.toServer (s.1, p) (.sliceRequest (grvSliceRequest s st request p)))

/-! ## 2. One look at every handler -/

/-- What a server does for requests, handler by handler. -/
inductive GrvWork (s : ServerId c) (st : GrvServerState c) : GrvEvent c → GrvOutcome c → Prop
  | other {e : GrvEvent c} {r : GrvOutcome c} (he : e.Other)
      (hput : r.state.putStates = st.putStates) (hrotx : r.state.rotxStates = st.rotxStates)
      (hnew : ∀ x ∈ r.placed s, x.2.Other) : GrvWork s st e r
  | getForward {request : GrvGetRequest c} {cont : Cont (GrvEvent c)}
      (hproxy : request.proxy = none) (hcont : ∀ e ∈ cont.event?, e.Other) :
      GrvWork s st (.getRequest request)
        { state := grvUpdateGstVector st request.gstVector
          outs := [.toServer (lpidForKey s request.key)
            (.getRequest { request with proxy := some s })]
          cont := cont }
  | getLock {request : GrvGetRequest c} (hkey : lpidForKey s request.key = s) :
      GrvWork s st (.getRequest request)
        { state := st, cont := .lock .mutex grvLockGsv (.getRequestLocked request) }
  | getLocked {request : GrvGetRequest c} :
      GrvWork s st (.getRequestLocked request)
        { state := grvUpdateGstVector st request.gstVector
          cont := .unlock .mutex grvLockGsv (some (.getRequestUnlocked request)) }
  | getServe {e : GrvEvent c} {request : GrvGetRequest c}
      (he : e = .getRequest request ∨ e = .getRequestUnlocked request)
      (hkey : ownsKey s request.key) :
      GrvWork s st e
        { state := st
          outs := [grvSend (replyTo request.client request.proxy)
            (.getResponse (grvGetAnswer s st request))] }
  | getResponse {response : GrvGetResponse c} :
      GrvWork s st (.getResponse response)
        { state := st, outs := [.toClient response.client (.getResponse response)] }
  | putForward {request : GrvPutRequest c} (hproxy : request.proxy = none) :
      GrvWork s st (.putRequest request)
        { state := st
          outs := [.toServer (lpidForKey s request.key)
            (.putRequest { request with proxy := some s })] }
  | putDefer {request : GrvPutRequest c} (hkey : lpidForKey s request.key = s)
      (hlt : st.clock < maxVector request.dependencyVector) :
      GrvWork s st (.putRequest request)
        { state := st
          outs := [.self (maxVector request.dependencyVector - st.clock) (.putRequest request)] }
  | putOpen {request : GrvPutRequest c} (hkey : lpidForKey s request.key = s)
      (hle : maxVector request.dependencyVector ≤ st.clock) :
      GrvWork s st (.putRequest request)
        { state := { st with putStates := ptrArrayPut request.state st.putStates }
          cont := .lock .mutex grvLockVv (.putRequestLocked (ptrArrayFree st.putStates)) }
  | putLocked {id : ℕ} {putState : GrvPutState c}
      (hput : ptrArrayGet st.putStates id = some putState) (hkey : ownsKey s putState.key) :
      GrvWork s st (.putRequestLocked id)
        (grvPutOutcome s st id putState (grvPutValue st putState.key (grvPutItem s st putState)))
  | putUnlocked {id : ℕ} {putState : GrvPutState c} {stamp : GrvPutStamp c}
      (hput : ptrArrayGet st.putStates id = some putState) (hstamp : putState.stamp = some stamp) :
      GrvWork s st (.putRequestUnlocked id)
        { state := { st with putStates := ptrArraySet st.putStates id none }
          outs := grvSend putState.destination (.putResponse (grvPutAnswer s putState stamp)) ::
            if stamp.discarded then []
            else grvReplicateValue s (grvPutUpdate s putState stamp) }
  | putResponse {response : GrvPutResponse c} :
      GrvWork s st (.putResponse response)
        { state := st, outs := [.toClient response.client (.putResponse response)] }
  | rotxLock {request : GrvRotxRequest c} :
      GrvWork s st (.rotxRequest request)
        { state := st, cont := .lock .mutex grvLockGsv (.rotxRequestLocked request) }
  | rotxLocked {request : GrvRotxRequest c} :
      GrvWork s st (.rotxRequestLocked request)
        { state := grvUpdateGstVector st request.gstVector
          cont := .unlock .mutex grvLockGsv (some (.rotxRequestUnlocked request)) }
  | rotxOpen {e : GrvEvent c} {request : GrvRotxRequest c}
      (he : e = .rotxRequest request ∨ e = .rotxRequestUnlocked request) :
      GrvWork s st e
        { state := { st with rotxStates := ptrArrayPut request.state st.rotxStates }
          outs := grvSliceRequests s st request }
  | sliceDefer {request : GrvSliceRequest c} (hlt : st.clock < request.snapshotTime) :
      GrvWork s st (.sliceRequest request)
        { state := st
          outs := [.self (request.snapshotTime - st.clock) (.sliceRequest request)]
          noTime := true }
  | sliceLock {request : GrvSliceRequest c} :
      GrvWork s st (.sliceRequest request)
        { state := st, noTime := true
          cont := .lock .mutex grvLockGsv (.sliceRequestLocked request) }
  | sliceLocked {request : GrvSliceRequest c} :
      GrvWork s st (.sliceRequestLocked request)
        { state := grvUpdateGstVector st request.gstVector
          cont := .unlock .mutex grvLockGsv (some (.sliceRequestUnlocked request)) }
  | sliceServe {e : GrvEvent c} {request : GrvSliceRequest c} {noTime : Bool}
      (he : e = .sliceRequest request ∨ e = .sliceRequestUnlocked request)
      (hkeys : request.keys.all fun x => ownsKey s x.2) :
      GrvWork s st e
        { state := st
          outs := [.toServer request.fromLpid (.sliceResponse (grvSliceAnswer s st request))]
          noTime := noTime }
  | receive {slice : GrvSliceResponse c} {rotx : GrvRotxState c}
      (hget : ptrArrayGet st.rotxStates slice.rotxId = some rotx)
      (hmore : (grvReceiveSlice rotx slice).receivedValues ≠
        (grvReceiveSlice rotx slice).values.length) :
      GrvWork s st (.sliceResponse slice)
        { state := { st with
            rotxStates := ptrArraySet st.rotxStates slice.rotxId
              (some (grvReceiveSlice rotx slice)) } }
  | receiveLast {slice : GrvSliceResponse c} {rotx : GrvRotxState c}
      (hget : ptrArrayGet st.rotxStates slice.rotxId = some rotx)
      (hlast : (grvReceiveSlice rotx slice).receivedValues =
        (grvReceiveSlice rotx slice).values.length) :
      GrvWork s st (.sliceResponse slice)
        { state := { st with rotxStates := ptrArraySet st.rotxStates slice.rotxId none }
          outs := [.toClient rotx.client
            (.rotxResponse (grvRotxAnswer (grvReceiveSlice rotx slice)))] }

theorem grvSendGst_other (s : ServerId c) (rootGst : GrvGstFromRoot c) {st : GrvServerState c}
    {cont : Cont (GrvEvent c)} (hcont : ∀ e ∈ cont.event?, e.Other) :
    ∀ x ∈ ({ state := st, outs := grvSendGst s rootGst, cont := cont } : GrvOutcome c).placed s,
      x.2.Other := by
  refine Outcome.forall_placed (fun o ho => ?_) hcont
  obtain ⟨p, -, rfl⟩ := List.mem_map.mp ho
  trivial

theorem grvClockTick_other (s : ServerId c) (st : GrvServerState c) (sendTime : Bool) :
    ∀ x ∈ ({ state := st
             outs := grvSendHeartbeat s st sendTime ++ [.self c.clockInterval .clockTick] } :
      GrvOutcome c).placed s, x.2.Other := by
  refine Outcome.forall_placed (fun o ho => ?_) (by rintro _ ⟨⟩)
  rcases List.mem_append.mp ho with ho | ho
  · obtain ⟨p, -, rfl⟩ := List.mem_map.mp ho
    trivial
  · obtain rfl := List.mem_singleton.mp ho
    trivial

theorem grvReplicaUpdateOutcome_other (s : ServerId c) (st : GrvServerState c) (source : Replica c)
    (r : List (GrvReplicaUpdate c) × Option (GrvReplicaUpdate c)) (noTime : Bool) :
    ∀ x ∈ ({ grvReplicaUpdateOutcome st source r with noTime := noTime } : GrvOutcome c).placed s,
      x.2.Other := by
  intro x hx
  obtain ⟨queue, n⟩ := r
  cases n with
  | none => cases hx
  | some update =>
    obtain rfl := List.mem_singleton.mp hx
    trivial

/-- A value that is received changes neither the client nor the number of values. -/
@[simp]
theorem grvReceiveValue_client (rotx : GrvRotxState c) (v : GrvSliceValue c) :
    (grvReceiveValue rotx v).client = rotx.client := rfl

@[simp]
theorem grvReceiveSlice_client (rotx : GrvRotxState c) (slice : GrvSliceResponse c) :
    (grvReceiveSlice rotx slice).client = rotx.client := by
  have hfold : ∀ (values : List (GrvSliceValue c)) (rotx : GrvRotxState c),
      (values.foldl grvReceiveValue rotx).client = rotx.client := by
    intro values
    induction values with
    | nil => exact fun _ => rfl
    | cons v values ih => exact fun rotx => ih (grvReceiveValue rotx v)
  exact hfold slice.values rotx

/-- A GET is answered once the stable vector is up to date. -/
theorem grvProcessGetRequestUnlocked_work {s : ServerId c} {st : GrvServerState c}
    {e : GrvEvent c} {request : GrvGetRequest c}
    (he : e = .getRequest request ∨ e = .getRequestUnlocked request) {r : GrvOutcome c}
    (h : grvProcessGetRequestUnlocked s st request = some r) : GrvWork s st e r := by
  unfold grvProcessGetRequestUnlocked at h
  split at h
  · rename_i hkey
    cases h
    exact .getServe he hkey
  · cases h

/-- A handler for a GET. -/
theorem grvProcessGetRequest_work {s : ServerId c} {st : GrvServerState c}
    {request : GrvGetRequest c} {r : GrvOutcome c}
    (h : grvProcessGetRequest s st request = some r) : GrvWork s st (.getRequest request) r := by
  simp only [grvProcessGetRequest] at h
  split at h
  · split at h
    · cases h
    · rename_i hproxy
      cases h
      refine .getForward (not_not.mp hproxy) ?_
      split <;> rintro _ ⟨⟩
      trivial
  · rename_i hkey
    split at h
    · cases h
      exact .getLock (not_not.mp hkey)
    · exact grvProcessGetRequestUnlocked_work (.inl rfl) h

/-- A handler for a PUT. -/
theorem grvProcessPutRequest_work {s : ServerId c} {st : GrvServerState c}
    {request : GrvPutRequest c} {r : GrvOutcome c}
    (h : grvProcessPutRequest s st request = some r) : GrvWork s st (.putRequest request) r := by
  simp only [grvProcessPutRequest] at h
  split at h
  · split at h
    · cases h
    · rename_i hproxy
      cases h
      exact .putForward (not_not.mp hproxy)
  · rename_i hkey
    split at h
    · rename_i hlt
      cases h
      exact .putDefer (not_not.mp hkey) hlt
    · rename_i hle
      cases h
      exact .putOpen (not_not.mp hkey) (not_lt.mp hle)

/-- A slice is read at once, or later. -/
theorem grvProcessSliceRequest_work {s : ServerId c} {st : GrvServerState c}
    {request : GrvSliceRequest c} {r : GrvOutcome c}
    (h : grvProcessSliceRequest s st request = some r) :
    GrvWork s st (.sliceRequest request) r := by
  simp only [grvProcessSliceRequest] at h
  split at h
  · rename_i hlt
    cases h
    exact .sliceDefer hlt
  · split at h
    · cases h
      exact .sliceLock
    · obtain ⟨r, hr, rfl⟩ := Option.map_eq_some_iff.mp h
      unfold grvProcessSliceRequestUnlocked at hr
      split at hr
      · rename_i hkeys
        cases hr
        exact .sliceServe (.inl rfl) hkeys
      · cases hr

/-- A slice that is received is one of several, or the last one. -/
theorem grvProcessSliceResponse_work {s : ServerId c} {st : GrvServerState c}
    {slice : GrvSliceResponse c} {r : GrvOutcome c}
    (h : grvProcessSliceResponse st slice = some r) : GrvWork s st (.sliceResponse slice) r := by
  unfold grvProcessSliceResponse at h
  split at h
  · cases h
  · rename_i rotx hget
    dsimp only at h
    split at h
    · rename_i hlast
      cases h
      have hwork : GrvWork s st (.sliceResponse slice) _ := .receiveLast hget hlast
      simpa only [grvSendRotxResponse, ptrArraySet, List.set_set, grvReceiveSlice_client] using hwork
    · rename_i hmore
      cases h
      exact .receive hget hmore

/-- One look at every handler. -/
theorem grvProcessEvent_work {s : ServerId c} {st : GrvServerState c} {e : GrvEvent c}
    {r : GrvOutcome c} (h : grvProcessEvent s st e = some r) : GrvWork s st e r := by
  -- a handler that leaves one event behind, or none
  have hone : ∀ {r : GrvOutcome c}, r.state.putStates = st.putStates →
      r.state.rotxStates = st.rotxStates → e.Other →
      (∃ x : (ServerId c ⊕ ClientId c) × GrvEvent c, r.placed s = [x] ∧ x.2.Other) →
        GrvWork s st e r := by
    intro r hput hrotx he ⟨x, hplaced, hx⟩
    refine .other he hput hrotx ?_
    rw [hplaced]
    exact List.forall_mem_singleton.mpr hx
  cases e with
  | getRequest request => exact grvProcessGetRequest_work h
  | getRequestLocked request =>
    cases h
    exact .getLocked
  | getRequestUnlocked request => exact grvProcessGetRequestUnlocked_work (.inr rfl) h
  | getResponse response =>
    cases h
    exact .getResponse
  | putRequest request => exact grvProcessPutRequest_work h
  | putRequestLocked id =>
    simp only [grvProcessEvent, grvProcessPutRequestLocked] at h
    split at h
    · cases h
    · rename_i hput
      split at h
      · rename_i hkey
        cases h
        exact .putLocked hput hkey
      · cases h
  | putRequestUnlocked id =>
    simp only [grvProcessEvent, grvProcessPutRequestUnlocked] at h
    split at h
    · cases h
    · rename_i hput
      split at h
      · cases h
      · rename_i hstamp
        cases h
        exact .putUnlocked hput hstamp
  | putResponse response =>
    cases h
    exact .putResponse
  | rotxRequest request =>
    simp only [grvProcessEvent, grvProcessRotxRequest] at h
    split at h
    · cases h
      exact .rotxLock
    · cases h
      exact .rotxOpen (.inl rfl)
  | rotxRequestLocked request =>
    cases h
    exact .rotxLocked
  | rotxRequestUnlocked request =>
    cases h
    exact .rotxOpen (.inr rfl)
  | sliceRequest request => exact grvProcessSliceRequest_work h
  | sliceRequestLocked request =>
    cases h
    exact .sliceLocked
  | sliceRequestUnlocked request =>
    simp only [grvProcessEvent, grvProcessSliceRequestUnlocked] at h
    split at h
    · rename_i hkeys
      cases h
      exact .sliceServe (.inr rfl) hkeys
    · cases h
  | sliceResponse slice => exact grvProcessSliceResponse_work h
  | forwardedGetRequestLocked request =>
    cases h
    exact .other trivial rfl rfl (List.forall_mem_nil _)
  | lstFromLeafRootLocked =>
    cases h
    exact hone rfl rfl trivial ⟨_, rfl, trivial⟩
  | gstFromRootLocked rootGst =>
    cases h
    exact hone rfl rfl trivial ⟨_, rfl, trivial⟩
  | startGstComputation =>
    simp only [grvProcessEvent, grvProcessStartGstComputation] at h
    split at h
    · split at h
      all_goals
        cases h
        exact hone rfl rfl trivial ⟨_, rfl, trivial⟩
    · cases h
  | gstFromRootUnlocked =>
    simp only [grvProcessEvent, grvProcessGstFromRootUnlocked, Option.some.injEq] at h
    subst h
    refine .other trivial rfl rfl (Outcome.forall_placed (fun o ho => ?_) (by rintro _ ⟨⟩))
    dsimp only at ho
    split at ho
    · obtain rfl := List.mem_singleton.mp ho
      trivial
    · cases ho
  | lstFromLeafRootUnlocked =>
    cases h
    exact .other trivial rfl rfl (grvSendGst_other s ⟨st.gstVector⟩ (by rintro _ ⟨⟩))
  | gstFromRoot rootGst =>
    cases h
    exact .other trivial rfl rfl (grvSendGst_other s rootGst (by rintro _ ⟨⟩; trivial))
  | clockTickUnlocked sendTime =>
    cases h
    exact .other trivial rfl rfl (grvClockTick_other s st sendTime)
  | clockTick =>
    simp only [grvProcessEvent, grvProcessClockTick] at h
    split at h
    · cases h
      exact hone rfl rfl trivial ⟨_, rfl, trivial⟩
    · cases h
      exact .other trivial rfl rfl (grvClockTick_other s st false)
  | clockTickLocked =>
    cases h
    exact hone rfl rfl trivial ⟨_, rfl, trivial⟩
  | lstFromLeaf leafLst =>
    simp only [grvProcessEvent, grvProcessLstFromLeaf, grvSendLstToParent] at h
    split at h
    · cases h
    · split at h
      · split at h
        · cases h
          exact hone rfl rfl trivial ⟨_, rfl, trivial⟩
        · cases h
          exact hone rfl rfl trivial ⟨_, rfl, trivial⟩
      · cases h
        exact .other trivial rfl rfl (List.forall_mem_nil _)
  | heartbeat heartbeat =>
    cases h
    exact hone rfl rfl trivial ⟨_, rfl, trivial⟩
  | heartbeatLocked heartbeat =>
    cases h
    exact .other trivial rfl rfl (List.forall_mem_nil _)
  | replicaUpdate update =>
    simp only [grvProcessEvent, grvProcessReplicaUpdate, Option.map_eq_some_iff] at h
    obtain ⟨⟨queue, n⟩, -, rfl⟩ := h
    exact .other trivial rfl rfl (grvReplicaUpdateOutcome_other s st update.sourceReplica (queue, n) _)
  | replicaUpdateVvUnlocked update =>
    simp only [grvProcessEvent, grvProcessReplicaUpdateVvUnlocked, Option.map_eq_some_iff] at h
    obtain ⟨⟨queue, n⟩, -, rfl⟩ := h
    exact .other trivial rfl rfl (grvReplicaUpdateOutcome_other s st update.sourceReplica (queue, n) _)
  | replicaUpdateVvLocked update =>
    simp only [grvProcessEvent, grvProcessReplicaUpdateVvLocked] at h
    split at h
    · cases h
      exact hone rfl rfl trivial ⟨_, rfl, trivial⟩
    · cases h
  | rotxResponse => cases h
  | clientTick => cases h

/-! ## 3. What a client asks for -/

/-- What a client sends in the state `st`. -/
inductive GrvAsk (k : ClientId c) (st : GrvClientState c) :
    (ServerId c ⊕ ClientId c) × GrvEvent c → Prop
  | tick : GrvAsk k st (.inr k, .clientTick)
  | get (key : Key) : GrvAsk k st (.inl k.server, .getRequest
      { client := k, proxy := none, key := key, gstVector := st.gstVector, past := st.past })
  | put (key : Key) (value : Value) : GrvAsk k st (.inl k.server, .putRequest
      { client := k, proxy := none, key := key, value := value
        dependencyVector := grvMaxGstAndDependencyVector st, past := st.past })
  | rotx (keys : List Key) : GrvAsk k st (.inl k.server, .rotxRequest
      { client := k, dependencyTime := st.dependencyVector k.1, keys := keys
        gstVector := st.gstVector })

/-- What a client learns from an event: the answer to its request. -/
inductive GrvLearn (k : ClientId c) (st : GrvClientState c) : GrvEvent c → GrvClientState c → Prop
  | get (response : GrvGetResponse c) {st' : GrvClientState c} (hst : st'.requestTime = none) :
      GrvLearn k st (.getResponse response) st'
  | put (response : GrvPutResponse c) {st' : GrvClientState c} (hst : st'.requestTime = none) :
      GrvLearn k st (.putResponse response) st'
  | rotx (response : GrvRotxResponse c) {st' : GrvClientState c} (hst : st'.requestTime = none) :
      GrvLearn k st (.rotxResponse response) st'
  | tick : GrvLearn k st .clientTick st

theorem grvClientReceive_learns {k : ClientId c} {st st' : GrvClientState c} {e : GrvEvent c}
    (h : grvClientReceive st e = some st') :
    GrvLearn k st e st' ∧ (e ≠ .clientTick → st.requestTime ≠ none) := by
  have hfinish : ∀ {st st' : GrvClientState c}, grvClientFinishRequest st = some st' →
      st' = { st with requestTime := none } ∧ st.requestTime ≠ none := by
    intro st st' h
    unfold grvClientFinishRequest at h
    split at h <;> cases h
    exact ⟨rfl, by assumption⟩
  cases e with
  | getResponse response =>
    obtain ⟨st₁, hst, rfl⟩ := Option.map_eq_some_iff.mp h
    obtain ⟨rfl, hbusy⟩ := hfinish hst
    exact ⟨.get response rfl, fun _ => hbusy⟩
  | putResponse response =>
    obtain ⟨st₁, hst, rfl⟩ := Option.map_eq_some_iff.mp h
    obtain ⟨rfl, hbusy⟩ := hfinish hst
    exact ⟨.put response rfl, fun _ => hbusy⟩
  | rotxResponse response =>
    obtain ⟨st₁, hst, rfl⟩ := Option.map_eq_some_iff.mp h
    obtain ⟨rfl, hbusy⟩ := hfinish hst
    exact ⟨.rotx response rfl, fun _ => hbusy⟩
  | clientTick =>
    cases h
    exact ⟨.tick, fun hne => absurd rfl hne⟩
  | _ => cases h

/-- A client sends at most one thing: nothing, a tick to itself, or a request to its server, and a
request only if none is under way. -/
inductive GrvSends (k : ClientId c) (st' : GrvClientState c) :
    GrvClientState c × List (GrvOut c) → Prop
  | nothing : GrvSends k st' (st', [])
  | tick (delay : ℚ) (hdelay : 0 ≤ delay) : GrvSends k st' (st', [.self delay .clientTick])
  | request {r : GrvClientState c} {e : GrvEvent c} (hidle : st'.requestTime = none)
      (hbusy : r.requestTime ≠ none) (hne : e ≠ .clientTick)
      (hask : GrvAsk k r (.inl k.server, e)) : GrvSends k st' (r, [.toServer k.server e])

theorem grvClientDecide_sends {k : ClientId c} {t : ℚ} {st : GrvClientState c}
    {decision : Decision} {r : GrvClientState c × List (GrvOut c)}
    (h : grvClientDecide k t st decision = some r) : GrvSends k st r := by
  have hsend : ∀ {request : GrvClientState c → GrvEvent c} {r : GrvClientState c × List (GrvOut c)},
      grvClientSend k t st request = some r → (∀ st, request st ≠ .clientTick) →
      (∀ st, GrvAsk k st (.inl k.server, request st)) → GrvSends k st r := by
    intro request r h hne hask
    unfold grvClientSend at h
    obtain ⟨st', hst, rfl⟩ := Option.map_eq_some_iff.mp h
    unfold grvClientBeginRequest at hst
    split at hst
    · rename_i hidle
      cases hst
      exact .request hidle (by rintro ⟨⟩) (hne _) (hask _)
    · cases hst
  cases decision with
  | nothing =>
    cases h
    exact .nothing
  | tick delay =>
    simp only [grvClientDecide] at h
    split at h
    · rename_i hdelay
      cases h
      exact .tick delay hdelay
    · cases h
  | get key => exact hsend h (by rintro _ ⟨⟩) fun _ => .get key
  | put key value => exact hsend h (by rintro _ ⟨⟩) fun _ => .put key value
  | rotx keys => exact hsend h (by rintro _ ⟨⟩) fun _ => .rotx keys

/-- A client learns, then asks. -/
theorem grvClientProcessEvent_some {k : ClientId c} {t : ℚ} {decision : Decision}
    {st : GrvClientState c} {e : GrvEvent c} {r : GrvClientState c × List (GrvOut c)}
    (h : grvClientProcessEvent k t decision st e = some r) :
    ∃ st', GrvLearn k st e st' ∧ (e ≠ .clientTick → st.requestTime ≠ none) ∧ GrvSends k st' r := by
  unfold grvClientProcessEvent at h
  split at h
  · cases h
  · rename_i st' hst
    obtain ⟨hlearn, hbusy⟩ := grvClientReceive_learns hst
    exact ⟨st', hlearn, hbusy, grvClientDecide_sends h⟩

end CCSim
