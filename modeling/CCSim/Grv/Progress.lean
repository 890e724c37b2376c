/-
# No handler of `grv` fails

The counterpart of `Gr/Progress.lean`.  What differs is where keys are kept: a GET or a request for
a slice waits for a lock in the message itself, so that the assertions about its keys rest on where
such messages go (`GrvKeysHome`), and only PUTs and transactions are in slots.
-/
import CCSim.Asserting
import CCSim.Replicas.Latency
import CCSim.Grv.Discipline
import CCSim.Grv.StateIds
import CCSim.Grv.Rounds
import CCSim.Grv.Coverage

namespace CCSim

open Replication

variable {c : Cluster} {s : ServerId c} {st : GrvServerState c} {e : GrvEvent c} {r : GrvOutcome c}

/-! ## 1. What assertions demand -/

/-- What the assertions of the handler of an event demand. -/
def GrvDemands (s : ServerId c) (st : GrvServerState c) : GrvEvent c → Prop
  | .getRequest request => lpidForKey s request.key ≠ s → request.proxy = none
  | .getRequestUnlocked request => ownsKey s request.key = true
  | .putRequest request => lpidForKey s request.key ≠ s → request.proxy = none
  | .putRequestLocked id => ∃ putState, ptrArrayGet st.putStates id = some putState ∧
      ownsKey s putState.key = true
  | .putRequestUnlocked id => ∃ putState, ptrArrayGet st.putStates id = some putState ∧
      putState.stamp.isSome = true
  | .replicaUpdate update => (replicaUpdateEnqueue (grvUpdateRules s) st.store
      (st.replicaUpdateQueues update.sourceReplica) update).isSome
  | .replicaUpdateVvLocked update => ownsKey s update.key = true ∧
      0 < st.now - update.updateTimeNoSkew
  | .replicaUpdateVvUnlocked update => (replicaUpdateDequeue (grvUpdateRules s) st.store
      (st.replicaUpdateQueues update.sourceReplica) update).isSome
  | .lstFromLeaf leafLst => leafLst.leafPartitionId.val ≠ 0 ∧
      st.lstReceived (childPartitionIndex c leafLst.leafPartitionId) = false
  | .startGstComputation => isLeafPartition s.2 = true
  | .sliceRequest request => ∀ x ∈ request.keys, ownsKey s x.2 = true
  | .sliceRequestUnlocked request => ∀ x ∈ request.keys, ownsKey s x.2 = true
  | .sliceResponse slice => ∃ rotx, ptrArrayGet st.rotxStates slice.rotxId = some rotx
  | .rotxResponse _ => False
  | .clientTick => False
  | _ => True

theorem grvProcessGetRequestUnlocked_isSome {request : GrvGetRequest c}
    (hkey : ownsKey s request.key = true) :
    (grvProcessGetRequestUnlocked s st request).isSome := by
  simp only [grvProcessGetRequestUnlocked, if_pos hkey, Option.isSome_some]

theorem grvProcessGetRequest_isSome {request : GrvGetRequest c}
    (h : lpidForKey s request.key ≠ s → request.proxy = none) :
    (grvProcessGetRequest s st request).isSome := by
  unfold grvProcessGetRequest
  dsimp only
  split
  · rename_i hkey
    rw [if_neg (not_not.mpr (h hkey))]
    rfl
  · rename_i hkey
    split
    · rfl
    · exact grvProcessGetRequestUnlocked_isSome (decide_eq_true (not_not.mp hkey))

theorem grvProcessPutRequest_isSome {request : GrvPutRequest c}
    (h : lpidForKey s request.key ≠ s → request.proxy = none) :
    (grvProcessPutRequest s st request).isSome := by
  unfold grvProcessPutRequest
  dsimp only
  split
  · rename_i hkey
    rw [if_neg (not_not.mpr (h hkey))]
    rfl
  · split <;> rfl

theorem grvProcessLstFromLeaf_isSome {leafLst : GrvLstFromLeaf c}
    (hroot : leafLst.leafPartitionId.val ≠ 0)
    (hflag : st.lstReceived (childPartitionIndex c leafLst.leafPartitionId) = false) :
    (grvProcessLstFromLeaf s st leafLst).isSome := by
  simp only [grvProcessLstFromLeaf, grvSendLstToParent, hroot, hflag, Bool.false_eq_true, or_self,
    if_false]
  split
  · split <;> rfl
  · rfl

theorem grvProcessSliceRequestUnlocked_isSome {request : GrvSliceRequest c}
    (hkeys : ∀ x ∈ request.keys, ownsKey s x.2 = true) :
    (grvProcessSliceRequestUnlocked s st request).isSome := by
  rw [grvProcessSliceRequestUnlocked, if_pos (List.all_eq_true.mpr hkeys)]
  rfl

/-- **A handler does not fail** if the event meets what its assertions demand. -/
theorem grvProcessEvent_isSome (h : GrvDemands s st e) : (grvProcessEvent s st e).isSome := by
  cases e with
  | rotxResponse | clientTick => exact h.elim
  | getRequest => exact grvProcessGetRequest_isSome h
  | getRequestUnlocked => exact grvProcessGetRequestUnlocked_isSome h
  | putRequest => exact grvProcessPutRequest_isSome h
  | putRequestLocked id =>
    obtain ⟨putState, hget, hkey⟩ := h
    simp only [grvProcessEvent, grvProcessPutRequestLocked, hget, if_pos hkey, Option.isSome_some]
  | putRequestUnlocked id =>
    obtain ⟨putState, hget, hstamp⟩ := h
    obtain ⟨stamp, hstamp⟩ := Option.isSome_iff_exists.mp hstamp
    simp only [grvProcessEvent, grvProcessPutRequestUnlocked, hget, hstamp, Option.isSome_some]
  | replicaUpdate | replicaUpdateVvUnlocked => exact Option.isSome_map.trans h
  | replicaUpdateVvLocked =>
    have h' : _ ∧ _ := h
    simp only [grvProcessEvent, grvProcessReplicaUpdateVvLocked, if_pos h', Option.isSome_some]
  | lstFromLeaf => exact grvProcessLstFromLeaf_isSome h.1 h.2
  | startGstComputation =>
    have hleaf : isLeafPartition s.2 = true := h
    simp only [grvProcessEvent, grvProcessStartGstComputation, hleaf, if_true]
    split <;> rfl
  | sliceRequest request =>
    simp only [grvProcessEvent, grvProcessSliceRequest]
    split
    · rfl
    · split
      · rfl
      · exact Option.isSome_map.trans (grvProcessSliceRequestUnlocked_isSome h)
  | sliceRequestUnlocked => exact grvProcessSliceRequestUnlocked_isSome h
  | sliceResponse slice =>
    obtain ⟨rotx, hget⟩ := h
    simp only [grvProcessEvent, grvProcessSliceResponse, hget]
    split <;> rfl
  | rotxRequest =>
    simp only [grvProcessEvent, grvProcessRotxRequest]
    split <;> rfl
  | clockTick =>
    simp only [grvProcessEvent, grvProcessClockTick]
    split <;> rfl
  | _ => rfl

/-! ## 2. Times -/

/-- Every handler notes when it ran. -/
theorem grvProcessEvent_now (h : grvProcessEvent s st e = some r) : r.state.now = st.now := by
  cases e <;> simp only [grvProcessEvent, grvProcessGetRequest, grvProcessForwardedGetRequestLocked,
    grvProcessGetRequestLocked, grvProcessGetRequestUnlocked, grvProcessGetResponse,
    grvProcessPutRequest, grvProcessPutRequestLocked, grvPutOutcome, grvProcessPutRequestUnlocked,
    grvProcessPutResponse, grvProcessReplicaUpdate, grvProcessReplicaUpdateVvLocked,
    grvProcessReplicaUpdateVvUnlocked, grvReplicaUpdateOutcome, grvProcessLstFromLeaf,
    grvSendLstToParent, grvProcessLstFromLeafRootLocked, grvProcessLstFromLeafRootUnlocked,
    grvProcessStartGstComputation, grvProcessGstFromRoot, grvProcessGstFromRootLocked,
    grvProcessGstFromRootUnlocked, grvProcessSliceRequest, grvProcessSliceRequestLocked,
    grvProcessSliceRequestUnlocked, grvProcessSliceResponse, grvSendRotxResponse,
    grvProcessRotxRequest, grvProcessRotxRequestLocked, grvProcessRotxRequestUnlocked,
    grvProcessClockTick, grvProcessClockTickLocked, grvProcessClockTickUnlocked,
    grvProcessHeartbeat, grvProcessHeartbeatLocked, grvUpdateGstVector,
    Option.map_eq_some_iff] at h <;>
  grind

theorem grvSend_forward (lpid : Lpid c) (e : GrvEvent c) : (grvSend lpid e).Forward := by
  cases lpid <;> trivial

theorem grvProcessGetRequestUnlocked_forward {request : GrvGetRequest c}
    (h : grvProcessGetRequestUnlocked s st request = some r) : ∀ o ∈ r.outs, o.Forward := by
  unfold grvProcessGetRequestUnlocked at h
  split at h <;> cases h
  exact List.forall_mem_singleton.mpr (grvSend_forward _ _)

theorem grvProcessClockTickUnlocked_forward {sendTime : Bool} (hclock : 0 ≤ c.clockInterval)
    (h : grvProcessClockTickUnlocked s st sendTime = some r) : ∀ o ∈ r.outs, o.Forward := by
  cases h
  intro o ho
  rcases List.mem_append.mp ho with ho | ho
  · obtain ⟨s', -, rfl⟩ := List.mem_map.mp ho
    trivial
  · rw [List.mem_singleton.mp ho]
    exact hclock

theorem grvSendLstToParent_forward (h : grvSendLstToParent s st = some r) :
    ∀ o ∈ r.outs, o.Forward := by
  unfold grvSendLstToParent at h
  split at h <;> cases h
  exact List.forall_mem_singleton.mpr trivial

theorem grvProcessSliceRequestUnlocked_forward {request : GrvSliceRequest c}
    (h : grvProcessSliceRequestUnlocked s st request = some r) : ∀ o ∈ r.outs, o.Forward := by
  unfold grvProcessSliceRequestUnlocked at h
  split at h <;> cases h
  exact List.forall_mem_singleton.mpr trivial

theorem grvProcessRotxRequestUnlocked_forward {request : GrvRotxRequest c}
    (h : grvProcessRotxRequestUnlocked s st request = some r) : ∀ o ∈ r.outs, o.Forward := by
  cases h
  intro o ho
  obtain ⟨p, -, hp⟩ := List.mem_filterMap.mp ho
  split at hp <;> cases hp
  trivial

theorem grvSendGst_forward (rootGst : GrvGstFromRoot c) :
    ∀ o ∈ grvSendGst s rootGst, o.Forward := by
  intro o ho
  obtain ⟨p, -, rfl⟩ := List.mem_map.mp ho
  trivial

/-- **What a server schedules for itself is not for the past**: what comes from the future comes
back when the clock has got there, and intervals are not negative. -/
theorem grvProcessEvent_forward (hgst : 0 ≤ c.gstInterval) (hclock : 0 ≤ c.clockInterval)
    (h : grvProcessEvent s st e = some r) : ∀ o ∈ r.outs, o.Forward := by
  cases e with
  | rotxResponse | clientTick => cases h
  | getRequest request =>
    simp only [grvProcessEvent, grvProcessGetRequest] at h
    split at h
    · split at h <;> cases h
      exact List.forall_mem_singleton.mpr trivial
    · split at h
      · cases h
        exact List.forall_mem_nil _
      · exact grvProcessGetRequestUnlocked_forward h
  | getRequestUnlocked => exact grvProcessGetRequestUnlocked_forward h
  | forwardedGetRequestLocked | getRequestLocked | lstFromLeafRootLocked | gstFromRootLocked
  | sliceRequestLocked | rotxRequestLocked | heartbeat | heartbeatLocked | clockTickLocked =>
    cases h
    exact List.forall_mem_nil _
  | getResponse | putResponse =>
    cases h
    exact List.forall_mem_singleton.mpr trivial
  | putRequest request =>
    simp only [grvProcessEvent, grvProcessPutRequest] at h
    split at h
    · split at h <;> cases h
      exact List.forall_mem_singleton.mpr trivial
    · split at h
      · rename_i hlt
        cases h
        exact List.forall_mem_singleton.mpr (sub_nonneg.mpr hlt.le)
      · cases h
        exact List.forall_mem_nil _
  | putRequestLocked =>
    obtain ⟨putState, -, -, rfl⟩ := grvProcessPutRequestLocked_some h
    exact List.forall_mem_nil _
  | putRequestUnlocked =>
    obtain ⟨putState, stamp, -, -, rfl⟩ := grvProcessPutRequestUnlocked_some h
    refine List.forall_mem_cons.mpr ⟨grvSend_forward _ _, fun o ho => ?_⟩
    split at ho
    · cases ho
    · obtain ⟨s', -, rfl⟩ := List.mem_map.mp ho
      trivial
  | replicaUpdate | replicaUpdateVvUnlocked =>
    obtain ⟨a, -, rfl⟩ := Option.map_eq_some_iff.mp h
    exact List.forall_mem_nil _
  | replicaUpdateVvLocked =>
    simp only [grvProcessEvent, grvProcessReplicaUpdateVvLocked] at h
    split at h <;> cases h
    exact List.forall_mem_nil _
  | lstFromLeaf leafLst =>
    simp only [grvProcessEvent, grvProcessLstFromLeaf] at h
    split at h
    · cases h
    · split at h
      · split at h
        · cases h
          exact List.forall_mem_nil _
        · exact grvSendLstToParent_forward h
      · cases h
        exact List.forall_mem_nil _
  | lstFromLeafRootUnlocked | gstFromRoot =>
    cases h
    exact grvSendGst_forward _
  | startGstComputation =>
    simp only [grvProcessEvent, grvProcessStartGstComputation] at h
    split at h
    · split at h <;> cases h
      · exact List.forall_mem_singleton.mpr hgst
      · exact List.forall_mem_singleton.mpr trivial
    · cases h
  | gstFromRootUnlocked =>
    cases h
    intro o ho
    dsimp only at ho
    split at ho
    · rw [List.mem_singleton.mp ho]
      exact hgst
    · cases ho
  | sliceRequest request =>
    simp only [grvProcessEvent, grvProcessSliceRequest] at h
    split at h
    · rename_i hlt
      cases h
      exact List.forall_mem_singleton.mpr (sub_nonneg.mpr hlt.le)
    · split at h
      · cases h
        exact List.forall_mem_nil _
      · obtain ⟨r', hr, rfl⟩ := Option.map_eq_some_iff.mp h
        have houts := grvProcessSliceRequestUnlocked_forward hr
        exact houts
  | sliceRequestUnlocked => exact grvProcessSliceRequestUnlocked_forward h
  | sliceResponse =>
    simp only [grvProcessEvent, grvProcessSliceResponse] at h
    split at h
    · cases h
    · split at h <;> cases h
      · exact List.forall_mem_singleton.mpr trivial
      · exact List.forall_mem_nil _
  | rotxRequest =>
    simp only [grvProcessEvent, grvProcessRotxRequest] at h
    split at h
    · cases h
      exact List.forall_mem_nil _
    · exact grvProcessRotxRequestUnlocked_forward h
  | rotxRequestUnlocked => exact grvProcessRotxRequestUnlocked_forward h
  | clockTick =>
    simp only [grvProcessEvent, grvProcessClockTick] at h
    split at h
    · cases h
      exact List.forall_mem_nil _
    · exact grvProcessClockTickUnlocked_forward hclock h
  | clockTickUnlocked => exact grvProcessClockTickUnlocked_forward hclock h

theorem grvClientProcessEvent_forward {k : ClientId c} {t : ℚ} {decision : Decision}
    {st : GrvClientState c} {y : GrvClientState c × List (GrvOut c)}
    (h : grvClientProcessEvent k t decision st e = some y) : ∀ o ∈ y.2, o.Forward := by
  obtain ⟨st', -, -, hsends⟩ := grvClientProcessEvent_some h
  cases hsends with
  | nothing => exact List.forall_mem_nil _
  | tick _ hdelay => exact List.forall_mem_singleton.mpr hdelay
  | request => exact List.forall_mem_singleton.mpr trivial

/-- **Nothing is scheduled in the past.** -/
theorem grv_forward (setup : Setup c (GrvEvent c)) : (grvProgram c).Forward where
  serve h := grvProcessEvent_forward (setup.start_pos.le.trans setup.start_le_gstInterval)
    (setup.start_pos.le.trans setup.start_le_clockInterval) (grvServerProcessEvent_some h)
  client h := grvClientProcessEvent_forward h

theorem grvPutOutcome_making {id : ℕ} {putState : GrvPutState c} {u : GrvReplicaUpdate c}
    {store : Option (Store (Replica c) (TimeVector c))}
    (hget : ptrArrayGet st.putStates id = some putState)
    (hu : grvMaking s (grvPutOutcome s st id putState store).state id = some u) :
    u.updateTimeNoSkew = st.now := by
  rw [grvMaking_set hget _ _ rfl, Function.update_self] at hu
  simp only [Option.bind_some] at hu
  split at hu <;> cases hu
  rfl

/-- Work on a queue asks for the lock for the update that it has come to. -/
theorem grvReplicaUpdateOutcome_install {source : Replica c}
    {q : List (GrvReplicaUpdate c) × Option (GrvReplicaUpdate c)} {noTime : Bool}
    {y : (ServerId c ⊕ ClientId c) × GrvEvent c} {w : GrvReplicaUpdate c}
    (hy : y ∈ Outcome.placed s { grvReplicaUpdateOutcome st source q with noTime := noTime })
    (hw : grvRole y.2 = .install w) : q.2 = some w := by
  obtain ⟨q, n⟩ := q
  rcases Outcome.mem_placed.mp hy with ⟨o, ho, -⟩ | ⟨e, he, rfl⟩
  · cases ho
  · obtain rfl := grvRole_install.mp hw
    cases n with
    | none => cases he
    | some u =>
      cases he
      rfl

/-- **A PUT notes the time, and updates are passed on as they are.** -/
theorem grvReplicating_notesTime (c : Cluster) : (grvReplicating c).NotesTime where
  put {s t st e r id u} h hrole hu := by
    obtain rfl := grvRole_put.mp hrole
    obtain ⟨putState, hget, -, rfl⟩ :=
      grvProcessPutRequestLocked_some (grvServerProcessEvent_some h)
    have htime := grvPutOutcome_making hget hu
    exact htime
  made {s t st e r id y w} h hrole hy hw := by
    obtain rfl := grvRole_made.mp hrole
    obtain ⟨putState, stamp, hget, hstamp, rfl⟩ :=
      grvProcessPutRequestUnlocked_some (grvServerProcessEvent_some h)
    have hget : ptrArrayGet st.putStates id = some putState := hget
    rcases Outcome.mem_placed.mp hy with ⟨o, ho, rfl⟩ | ⟨e, he, -⟩
    · have hevent := grvRole_update.mp hw
      rcases List.mem_cons.mp ho with rfl | ho
      · rw [grvSend_event] at hevent
        cases hevent
      · split at ho
        · cases ho
        · rename_i hdiscarded
          obtain ⟨s', -, rfl⟩ := List.mem_map.mp ho
          cases hevent
          show grvMaking s st id = _
          simp [grvMaking, hget, hstamp, hdiscarded]
    · cases he
  update {s t st e r u y w} h hrole hy hw := by
    obtain rfl := grvRole_update.mp hrole
    obtain ⟨q, hq, rfl⟩ := Option.map_eq_some_iff.mp (grvServerProcessEvent_some h)
    exact replicaUpdateEnqueue_next (hq.trans (congrArg _
      (Prod.ext rfl (grvReplicaUpdateOutcome_install hy hw))))
  install {s t st e r u y w} h hrole hy hw := by
    obtain rfl := grvRole_install.mp hrole
    have hr := grvServerProcessEvent_some h
    simp only [grvProcessEvent, grvProcessReplicaUpdateVvLocked] at hr
    split at hr <;> cases hr
    rcases Outcome.mem_placed.mp hy with ⟨o, ho, -⟩ | ⟨e, he, rfl⟩
    · cases ho
    · cases he
      cases hw
      rfl
  leave {s t st e r u y w} h hrole hy hw := by
    obtain rfl := grvRole_leave.mp hrole
    obtain ⟨q, hq, rfl⟩ := Option.map_eq_some_iff.mp (grvServerProcessEvent_some h)
    exact replicaUpdateDequeue_next (hq.trans (congrArg _
      (Prod.ext rfl (grvReplicaUpdateOutcome_install hy hw))))

/-! ## 3. Where keys are -/

/-- Keys that a handler is about to look up are held here. -/
def GrvKeysHome : (ServerId c ⊕ ClientId c) × GrvEvent c → Prop
  | (.inl s, .getRequestLocked request) => ownsKey s request.key = true
  | (.inl s, .getRequestUnlocked request) => ownsKey s request.key = true
  | (.inl s, .sliceRequest request) => ∀ x ∈ request.keys, ownsKey s x.2 = true
  | (.inl s, .sliceRequestLocked request) => ∀ x ∈ request.keys, ownsKey s x.2 = true
  | (.inl s, .sliceRequestUnlocked request) => ∀ x ∈ request.keys, ownsKey s x.2 = true
  | _ => True

/-- So is the key of every PUT. -/
def GrvPutsHome (s : ServerId c) (st : GrvServerState c) : Prop :=
  ∀ id putState, ptrArrayGet st.putStates id = some putState → ownsKey s putState.key = true

theorem grvKeysHome_other {x : (ServerId c ⊕ ClientId c) × GrvEvent c} (h : x.2.Other) :
    GrvKeysHome x := by
  obtain ⟨p, e⟩ := x
  cases e <;> first | exact h.elim | (cases p <;> trivial)

theorem GrvPutsHome.of_eq {st' : GrvServerState c} (h : GrvPutsHome s st)
    (hput : st'.putStates = st.putStates) : GrvPutsHome s st' := by
  rw [GrvPutsHome, hput]
  exact h

theorem GrvPutsHome.set {id : ℕ} {x : Option (GrvPutState c)} {st' : GrvServerState c}
    (h : GrvPutsHome s st) (hput : st'.putStates = ptrArraySet st.putStates id x)
    {putState : GrvPutState c} (hget : ptrArrayGet st.putStates id = some putState)
    (hx : ∀ y ∈ x, ownsKey s y.key = true) : GrvPutsHome s st' := by
  intro i y hi
  rw [hput, ptrArraySet_get hget] at hi
  split at hi
  · exact hx y hi
  · exact h i y hi

/-- A transaction asks for each of its keys where it is. -/
theorem grvSliceRequests_home (request : GrvRotxRequest c) :
    ∀ o ∈ grvSliceRequests s st request, GrvKeysHome (o.place s, o.event) := by
  intro o ho
  obtain ⟨p, -, hp⟩ := List.mem_filterMap.mp ho
  split at hp
  · cases hp
  · cases hp
    intro x hx
    have hkey := of_decide_eq_true (List.mem_filter.mp hx).2
    exact ownsKey_of_lpidForKey hkey

/-- **Every handler passes on that keys are held where they are looked up.** -/
theorem GrvWork.keysHome (hw : GrvWork s st e r) (hst : GrvPutsHome s st)
    (he : GrvKeysHome (.inl s, e)) :
    GrvPutsHome s r.state ∧ ∀ x ∈ r.placed s, GrvKeysHome x := by
  have hsend : ∀ {lpid : Lpid c} {e : GrvEvent c}, (∀ p, GrvKeysHome (p, e)) →
      GrvKeysHome ((grvSend lpid e).place s, (grvSend lpid e).event) := by
    intro lpid e hall
    cases lpid <;> exact hall _
  cases hw with
  | other _ hput _ hnew => exact ⟨hst.of_eq hput, fun x hx => grvKeysHome_other (hnew x hx)⟩
  | getForward _ hcont =>
    refine ⟨hst.of_eq rfl, Outcome.forall_placed (List.forall_mem_singleton.mpr trivial) ?_⟩
    exact fun e he => grvKeysHome_other (x := (.inl s, e)) (hcont e he)
  | getLock hkey =>
    refine ⟨hst, Outcome.forall_placed (List.forall_mem_nil _) ?_⟩
    rintro _ ⟨⟩
    exact ownsKey_of_lpidForKey hkey
  | getLocked | sliceLocked =>
    refine ⟨hst.of_eq rfl, Outcome.forall_placed (List.forall_mem_nil _) ?_⟩
    rintro _ ⟨⟩
    exact he
  | rotxLock | rotxLocked =>
    refine ⟨hst.of_eq rfl, Outcome.forall_placed (List.forall_mem_nil _) ?_⟩
    rintro _ ⟨⟩
    trivial
  | sliceLock =>
    refine ⟨hst, Outcome.forall_placed (List.forall_mem_nil _) ?_⟩
    rintro _ ⟨⟩
    exact he
  | getServe =>
    refine ⟨hst, Outcome.forall_placed (List.forall_mem_singleton.mpr (hsend fun p => ?_))
      (by rintro _ ⟨⟩)⟩
    cases p <;> trivial
  | putOpen hkey =>
    refine ⟨fun id putState hget => ?_, Outcome.forall_placed (List.forall_mem_nil _) ?_⟩
    · rw [ptrArrayPut_get] at hget
      split at hget
      · cases hget
        exact ownsKey_of_lpidForKey hkey
      · exact hst id putState hget
    · rintro _ ⟨⟩
      trivial
  | putLocked hput hkey =>
    refine ⟨hst.set rfl hput (by rintro _ ⟨⟩; exact hkey), ?_⟩
    refine Outcome.forall_placed (List.forall_mem_nil _) ?_
    rintro _ ⟨⟩
    trivial
  | putUnlocked hput =>
    refine ⟨hst.set rfl hput (by rintro _ ⟨⟩), Outcome.forall_placed ?_ (by rintro _ ⟨⟩)⟩
    refine List.forall_mem_cons.mpr ⟨hsend fun p => ?_, fun o ho => ?_⟩
    · cases p <;> trivial
    · split at ho
      · cases ho
      · obtain ⟨s', -, rfl⟩ := List.mem_map.mp ho
        trivial
  | rotxOpen =>
    exact ⟨hst.of_eq rfl, Outcome.forall_placed (grvSliceRequests_home _) (by rintro _ ⟨⟩)⟩
  | sliceDefer =>
    exact ⟨hst, Outcome.forall_placed (List.forall_mem_singleton.mpr he) (by rintro _ ⟨⟩)⟩
  | receive => exact ⟨hst.of_eq rfl, Outcome.forall_placed (List.forall_mem_nil _) (by rintro _ ⟨⟩)⟩
  | getResponse | putForward | putDefer | putResponse | sliceServe | receiveLast =>
    exact ⟨hst.of_eq rfl, Outcome.forall_placed (List.forall_mem_singleton.mpr trivial)
      (by rintro _ ⟨⟩)⟩

/-! ## 4. What servers are not sent -/

/-- What is for clients only: the answer to a transaction, and their ticks. -/
def GrvEvent.ForClients : GrvEvent c → Prop
  | .rotxResponse _ => True
  | .clientTick => True
  | _ => False

theorem GrvEvent.Other.not_forClients (h : e.Other) : ¬e.ForClients := by
  cases e <;> first | exact h.elim | exact fun h => h

/-- Servers keep it to themselves. -/
theorem GrvWork.forClients (hw : GrvWork s st e r) :
    ∀ x ∈ r.placed s, x.2.ForClients → ∃ k, x.1 = .inr k := by
  cases hw with
  | other _ _ _ hnew => exact fun x hx hfor => absurd hfor (hnew x hx).not_forClients
  | getForward _ hcont =>
    exact Outcome.forall_placed (List.forall_mem_singleton.mpr fun hfor => hfor.elim)
      fun e he hfor => absurd hfor (hcont e he).not_forClients
  | getServe =>
    refine Outcome.forall_placed (List.forall_mem_singleton.mpr ?_) (by rintro _ ⟨⟩)
    rw [grvSend_event]
    exact fun hfor => hfor.elim
  | putUnlocked =>
    refine Outcome.forall_placed (List.forall_mem_cons.mpr ⟨?_, fun o ho => ?_⟩) (by rintro _ ⟨⟩)
    · rw [grvSend_event]
      exact fun hfor => hfor.elim
    · split at ho
      · cases ho
      · obtain ⟨s', -, rfl⟩ := List.mem_map.mp ho
        exact fun hfor => hfor.elim
  | rotxOpen =>
    refine Outcome.forall_placed (fun o ho => ?_) (by rintro _ ⟨⟩)
    obtain ⟨p, -, hp⟩ := List.mem_filterMap.mp ho
    split at hp <;> cases hp
    exact fun hfor => hfor.elim
  | receive => exact Outcome.forall_placed (List.forall_mem_nil _) (by rintro _ ⟨⟩)
  | getResponse | putResponse | receiveLast =>
    exact Outcome.forall_placed (List.forall_mem_singleton.mpr fun _ => ⟨_, rfl⟩) (by rintro _ ⟨⟩)
  | putForward | putDefer | sliceDefer | sliceServe =>
    exact Outcome.forall_placed (List.forall_mem_singleton.mpr fun hfor => hfor.elim)
      (by rintro _ ⟨⟩)
  | _ =>
    refine Outcome.forall_placed (List.forall_mem_nil _) ?_
    rintro _ ⟨⟩ hfor
    exact hfor.elim

section Runs

variable {setup : Setup c (GrvEvent c)} {Q : GrvAct c → Prop} {M : GrvMail c} {h : List (GrvAct c)}

theorem grv_keysHome (hr : Mail.Run (grvProgram c) Q (grvWorld setup).config.mail M h) :
    (∀ s, GrvPutsHome s (M.server s)) ∧ ∀ x ∈ M.events, GrvKeysHome x := by
  have hflow := hr.flow GrvPutsHome (fun _ _ => True) GrvKeysHome ?_ ?_ ?_ (fun _ => trivial) ?_
  · exact ⟨hflow.1, hflow.2.2⟩
  · intro s t st e r hserve hst he
    have hst' : GrvPutsHome s { st with now := t, clock := c.clock s t } := hst.of_eq rfl
    exact (grvProcessEvent_work (grvServerProcessEvent_some hserve)).keysHome hst' he
  · intro k t decision st e r hclient _ _
    obtain ⟨st', -, -, hsends⟩ := grvClientProcessEvent_some hclient
    refine ⟨trivial, ?_⟩
    cases hsends with
    | nothing => exact List.forall_mem_nil _
    | tick => exact List.forall_mem_singleton.mpr trivial
    | request _ _ _ hask =>
      refine List.forall_mem_singleton.mpr ?_
      cases hask <;> trivial
  · exact fun s id putState hget => by cases hget
  · intro x hx
    rcases Setup.mem_mail hx with ⟨s, rfl, -⟩ | ⟨s, rfl⟩ | ⟨k, rfl⟩ <;> trivial

theorem grv_forClients (hr : Mail.Run (grvProgram c) Q (grvWorld setup).config.mail M h) :
    ∀ x ∈ M.events, x.2.ForClients → ∃ k, x.1 = .inr k := by
  have hflow := hr.flow (fun _ _ => True) (fun _ _ => True)
    (fun x => x.2.ForClients → ∃ k, x.1 = .inr k) ?_ ?_ (fun _ => trivial) (fun _ => trivial) ?_
  · exact hflow.2.2
  · intro s t st e r hserve _ _
    exact ⟨trivial, (grvProcessEvent_work (grvServerProcessEvent_some hserve)).forClients⟩
  · intro k t decision st e r hasked _ _
    obtain ⟨st', -, -, hsends⟩ := grvClientProcessEvent_some hasked
    refine ⟨trivial, ?_⟩
    cases hsends with
    | nothing => exact List.forall_mem_nil _
    | tick => exact List.forall_mem_singleton.mpr fun _ => ⟨_, rfl⟩
    | request _ _ _ hask =>
      refine List.forall_mem_singleton.mpr fun hfor => ?_
      cases hask <;> exact hfor.elim
  · intro x hx hfor
    rcases Setup.mem_mail hx with ⟨s, rfl, -⟩ | ⟨s, rfl⟩ | ⟨k, rfl⟩
    · exact hfor.elim
    · exact hfor.elim
    · exact ⟨k, rfl⟩

/-- A slot is in use while its id is under way. -/
theorem grv_slot_live (hr : Mail.Run (grvProgram c) Q (grvWorld setup).config.mail M h)
    {x : (ServerId c ⊕ ClientId c) × GrvEvent c} (hx : x ∈ M.events) (slot : Slot c)
    (hslot : grvSlot x = some slot) :
    ∃ y, (grvStateView c).objectAt M slot = some y := by
  by_contra hfree
  have hnone : (grvStateView c).objectAt M slot = none :=
    Option.eq_none_iff_forall_ne_some.mpr fun y hy => hfree ⟨y, hy⟩
  exact (grv_free_unreferred hr hnone).events x hx hslot

theorem grv_starts_at_leaves (hr : Mail.Run (grvProgram c) Q (grvWorld setup).config.mail M h)
    (i : Replica c) : ∀ x ∈ M.events, (grvRounds c i).StartsAtLeaf x := by
  refine RoundView.starts_at_leaves (fun hrun hmem hserve => ?_) (fun hasked y hy => ?_) ?_ hr
  · exact grvServerProcessEvent_rounds hserve fun y hy =>
      (grv_rounds_kept hrun i).placed _ hmem _ (by rw [RoundView.tokenAt, hy]; rfl)
  · obtain ⟨_, -, -, hsends⟩ := grvClientProcessEvent_some hasked
    exact hsends.ignored y hy
  · intro x hx s p hstart
    rcases Setup.mem_mail hx with ⟨s', rfl, hleaf⟩ | ⟨s', rfl⟩ | ⟨k, rfl⟩ <;> cases hstart
    exact hleaf

end Runs

/-! ## 5. Every run -/

section Progress

variable {setup : Setup c (GrvEvent c)} {C : GrvCond c} {h : List (GrvAct c)}
  {A : Config (ServerId c) (ClientId c) (GrvEvent c) (GrvServerState c) (GrvClientState c)}

/-- A PUT that is about to give its lock back has been stamped. -/
def GrvPutStamped (st : GrvServerState c) : GrvEvent c → Prop
  | .putRequestUnlocked id => ∃ putState, ptrArrayGet st.putStates id = some putState ∧
      putState.stamp.isSome = true
  | _ => True

theorem GrvPutStamped.of_eq {st' : GrvServerState c} (h : GrvPutStamped st e)
    (hput : st'.putStates = st.putStates) : GrvPutStamped st' e := by
  cases e with
  | putRequestUnlocked =>
    rw [GrvPutStamped, hput]
    exact h
  | _ => trivial

/-- Other handlers leave the stamps alone. -/
theorem GrvWork.stamps {e' : GrvEvent c} (hw : GrvWork s st e r)
    (hlocked : grvKind e ≠ .locked .mutex grvLockVv)
    (hunlocked : grvKind e ≠ .unlocked .mutex grvLockVv) (he' : GrvPutStamped st e') :
    GrvPutStamped r.state e' := by
  cases hw with
  | other _ hput => exact he'.of_eq hput
  | putOpen =>
    cases e' with
    | putRequestUnlocked id =>
      obtain ⟨putState, hget, hstamp⟩ := he'
      refine ⟨putState, ?_, hstamp⟩
      dsimp only
      rw [ptrArrayPut_get, if_neg, hget]
      rintro rfl
      rw [ptrArrayFree_get] at hget
      cases hget
    | _ => trivial
  | putLocked => exact absurd rfl hlocked
  | putUnlocked => exact absurd rfl hunlocked
  | _ => exact he'.of_eq rfl

/-- It is the handler with the lock that stamps a PUT. -/
theorem GrvWork.stamped {id : ℕ} (hw : GrvWork s st e r)
    (hcont : r.cont = .unlock .mutex grvLockVv (some (.putRequestUnlocked id))) :
    GrvPutStamped r.state (.putRequestUnlocked id) := by
  have hplaced : (.inl s, .putRequestUnlocked id) ∈ r.placed s :=
    Outcome.mem_placed.mpr (.inr ⟨_, by rw [hcont]; rfl, rfl⟩)
  cases hw with
  | other _ _ _ hnew => exact (hnew _ hplaced).elim
  | getForward _ hother =>
    dsimp only at hcont
    subst hcont
    exact (hother _ rfl).elim
  | putLocked hput =>
    cases hcont
    exact ⟨_, (ptrArraySet_get hput _ _).trans (if_pos rfl), rfl⟩
  | _ => cases hcont

theorem grv_put_stamped (hr : Run (grvProgram c) C (grvWorld setup).config A h) :
    ∀ s e u, .release s .mutex grvLockVv (some e) u ∈ A.pool → GrvPutStamped (A.server s) e := by
  refine Run.released (fun _ => GrvPutStamped) (grvReplicating c).disciplined
    (grvWorld_fresh setup).exclusive (fun s e u => (grvWorld_fresh setup).unlocked s e u)
    (fun {A h s t e r e'} _ hserve hcont => ?_)
    (fun _ hserve hlocked hunlocked he' =>
      (grvProcessEvent_work (grvServerProcessEvent_some hserve)).stamps hlocked hunlocked
        (he'.of_eq rfl)) hr
  cases e' with
  | putRequestUnlocked id =>
    exact (grvProcessEvent_work (grvServerProcessEvent_some hserve)).stamped hcont
  | _ => trivial

/-- What the assertions about the queue of an update demand. -/
def GrvQueueDemands (s : ServerId c) (st : GrvServerState c) : GrvEvent c → Prop
  | .replicaUpdate update => (replicaUpdateEnqueue (grvUpdateRules s) st.store
      (st.replicaUpdateQueues update.sourceReplica) update).isSome
  | .replicaUpdateVvUnlocked update => (replicaUpdateDequeue (grvUpdateRules s) st.store
      (st.replicaUpdateQueues update.sourceReplica) update).isSome
  | _ => True

/-- **What the assertions demand is met** by everything whose turn has come, in every run, except
for the assertions about the queues of updates. -/
theorem grv_demands (hr : Run (grvProgram c) C (grvWorld setup).config A h)
    {x : Task (ServerId c) (ClientId c) (GrvEvent c)} {t : ℚ} {tb tb' : LockTable} (hx : x ∈ A.pool)
    (ht : A.now ≤ t) (hready : Ready s t tb x e tb') (hqueue : GrvQueueDemands s (A.server s) e) :
    GrvDemands s { A.server s with now := t, clock := c.clock s t } e := by
  have hfresh := grvWorld_fresh setup
  have hmail : Mail.Run (grvProgram c) (fun _ => True) (grvWorld setup).config.mail A.mail h :=
    hr.mail fun _ _ => trivial
  have hmem : (.inl s, e) ∈ A.mail.events := Config.mem_mail hx hready.event?
  have hplaced := (hr.exclusive (grvReplicating c).disciplined hfresh.exclusive).placed x hx
  have hhome := grv_keysHome hmail
  have hslot := grv_slot_live hmail hmem
  cases e with
  | getRequest request =>
    have hrouted := (grv_formed hmail).2 _ hmem
    exact fun hkey => Routed.proxy_eq_none hrouted hkey
  | putRequest request =>
    have hrouted := (grv_formed hmail).2 _ hmem
    exact fun hkey => Routed.proxy_eq_none hrouted hkey
  | getRequestUnlocked => exact hhome.2 _ hmem
  | putRequestLocked id =>
    obtain ⟨y, hy⟩ := hslot ⟨s, .put, id⟩ rfl
    obtain ⟨putState, hget, -⟩ := Option.map_eq_some_iff.mp hy
    exact ⟨putState, hget, hhome.1 s id putState hget⟩
  | putRequestUnlocked id =>
    obtain ⟨u, rfl⟩ := hready.released hplaced ((grvReplicating c).kind_made rfl)
    exact grv_put_stamped hr s _ u hx
  | replicaUpdate | replicaUpdateVvUnlocked => exact hqueue
  | replicaUpdateVvLocked update =>
    exact ⟨Replicating.install_owns (R := grvReplicating c) hfresh hr hx hready.event? rfl,
      Replicating.latency_pos (grvReplicating_notesTime c) hfresh hr hx hready.event? rfl ht⟩
  | lstFromLeaf leafLst =>
    obtain ⟨hroot, hflag⟩ := (grv_rounds hmail s.1 s.1).asserted s.2 _ _ _ hmem rfl
    exact ⟨ne_root_iff.mp hroot, hflag⟩
  | startGstComputation => exact grv_starts_at_leaves hmail s.1 _ hmem s s.2 rfl
  | sliceRequest | sliceRequestUnlocked => exact hhome.2 _ hmem
  | sliceResponse slice =>
    obtain ⟨y, hy⟩ := hslot ⟨s, .rotx, slice.rotxId⟩ rfl
    obtain ⟨rotx, hget, -⟩ := Option.map_eq_some_iff.mp hy
    exact ⟨rotx, hget⟩
  | rotxResponse | clientTick =>
    obtain ⟨k, hk⟩ := grv_forClients hmail _ hmem trivial
    cases hk
  | _ => trivial

/-- The handlers of updates that can find a queue in disorder. -/
def GrvEvent.OfQueue : GrvEvent c → Prop
  | .replicaUpdate _ => True
  | .replicaUpdateVvUnlocked _ => True
  | _ => False

instance : DecidablePred (GrvEvent.OfQueue (c := c)) := fun e => by
  unfold GrvEvent.OfQueue
  split <;> infer_instance

/-- If updates are handled in the order in which they were made, the queues are in order. -/
theorem grv_queueDemands
    (hr : Run (grvProgram c) (grvReplicating c).UpdatesInOrder (grvWorld setup).config A h)
    {x : Task (ServerId c) (ClientId c) (GrvEvent c)} {t : ℚ} {tb tb' : LockTable} (hx : x ∈ A.pool)
    (hready : Ready s t tb x e tb') : GrvQueueDemands s (A.server s) e := by
  have hfresh := grvWorld_fresh setup
  have hE : (grvReplicating c).Enforces (grvReplicating c).UpdatesInOrder
      ⟨True, False, False, False, False, True⟩ :=
    Replicating.enforces (fun _ _ _ h => h) False.elim False.elim False.elim False.elim
      (fun _ v a _ => grv_noStall v a)
  have hplaced := (hr.exclusive (grvReplicating c).disciplined hfresh.exclusive).placed x hx
  cases e with
  | replicaUpdate update =>
    have hpending := hready.arrived hplaced rfl
    exact Replicating.enqueue_isSome hfresh hE hr trivial (hpending ▸ hx)
      (R := grvReplicating c) rfl
  | replicaUpdateVvUnlocked update =>
    exact Replicating.dequeue_isSome hfresh hE hr trivial hx hready.event?
      (R := grvReplicating c) rfl
  | _ => trivial

/-- **No handler fails** whose queue is in order, and what handlers hand over finds its way. -/
theorem grv_handles (hclients : (setup.clients.map Prod.snd).Nodup)
    {conf : NetworkConfig (ServerId c ⊕ ClientId c)} {d : NetworkDelays c}
    (hconf : conf.networkDelay = d.networkDelay) {G : GrvEvent c → Prop}
    (hr : Run (grvProgram c) C (grvWorld setup).config A h)
    (hqueue : ∀ {x s t tb tb' e}, x ∈ A.pool → Ready s t tb x e tb' → G e →
      GrvQueueDemands s (A.server s) e) :
    A.Handles (grvProgram c) conf G Decision.Valid := by
  refine (grv_disciplined (Q := fun _ => True) hclients
    (hr.mail fun _ _ => trivial)).handles hconf ?_
  intro x s t tb tb' e hx ht hready he
  have hnoted : (A.server s).now ≤ A.now :=
    Run.noted_le GrvServerState.now
      (fun hserve => grvProcessEvent_now (grvServerProcessEvent_some hserve))
      (fun _ => setup.start_pos.le) hr s
  show (grvServerProcessEvent s t (A.server s) e).isSome
  unfold grvServerProcessEvent
  rw [if_pos (hnoted.trans ht)]
  exact grvProcessEvent_isSome (grv_demands hr hx ht hready (hqueue hx hready he))

end Progress

end CCSim
