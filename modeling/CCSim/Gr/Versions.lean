/-
# What the handlers of `gr` do with versions

Of the events of a server, nine have to do with versions: a PUT under the lock and after it, an
update as it arrives, under its lock and after it, a heartbeat as it arrives and under its lock,
and the two ways a clock tick sends heartbeats.  All others are QUIET: they leave the store, the
other replicas' entries of the version vector, the queues and the stamped PUTs as they are.

This file says so for every handler, and with it that every handler ends in a way that suits the
lock it runs under.  Together this makes the protocol an instance of `Replicating`
(`grReplicating`), which is all that the results on coverage and convergence use of it.
-/
import CCSim.Gr.Protocol
import CCSim.Replicas.Handlers
import CCSim.Replicas.Results

namespace CCSim

open Replication

variable {c : Cluster}

/-! ## 1. Kinds and roles of events -/

/-- Under which lock an event runs. -/
def grKind : GrEvent c → Kind
  | .forwardGetRequestLocked _ => .locked .mutex grLock
  | .getRequestLocked _ => .locked .mutex grLock
  | .getRequestUnlocked _ => .unlocked .mutex grLock
  | .putRequestLocked _ => .locked .mutex grLock
  | .putRequestUnlocked _ => .unlocked .mutex grLock
  | .replicaUpdateLocked update => .locked .mutex (grReplicaLock update.sourceReplica)
  | .replicaUpdateUnlocked update => .unlocked .mutex (grReplicaLock update.sourceReplica)
  | .lstFromLeafRootLocked => .locked .mutex grLock
  | .lstFromLeafRootUnlocked => .unlocked .mutex grLock
  | .gstFromRootLocked _ => .locked .mutex grLock
  | .gstFromRootUnlocked _ => .unlocked .mutex grLock
  | .getSnapshotRequestLocked _ => .locked .mutex grLock
  | .getSnapshotRequestUnlocked _ => .unlocked .mutex grLock
  | .sliceRequestLocked _ => .locked .mutex grLock
  | .sliceRequestUnlocked _ => .unlocked .mutex grLock
  | .sliceResponseLocked _ => .locked .mutex grLock
  | .sliceResponseUnlocked _ => .unlocked .mutex grLock
  | .clockTickLocked => .locked .mutex grLock
  | .clockTickUnlocked _ => .unlocked .mutex grLock
  | .heartbeatLocked heartbeat => .locked .mutex (grReplicaLock heartbeat.replica)
  | _ => .plain

/-- What an event has to do with versions. -/
def grRole : GrEvent c → Role c Unit
  | .putRequestLocked id => .put id
  | .putRequestUnlocked id => .made id
  | .replicaUpdate update => .update update
  | .replicaUpdateLocked update => .install update
  | .replicaUpdateUnlocked update => .leave update
  | .heartbeat heartbeat => .beat heartbeat.replica heartbeat.time
  | .heartbeatLocked heartbeat => .raise heartbeat.replica heartbeat.time
  | .clockTickUnlocked true => .promise
  | .clockTickUnlocked false => .tick
  | .clockTick => .tick
  | _ => .other

/-- The update of a PUT that is stamped and not discarded. -/
def grMaking (s : ServerId c) (st : GrServerState c) (id : ℕ) : Option (GrReplicaUpdate c) :=
  (ptrArrayGet st.putStates id).bind fun putState => putState.stamp.bind fun stamp =>
    if stamp.discarded then none else some (grPutUpdate s putState stamp)

/-- The part of a server's state that is about versions. -/
def grView (s : ServerId c) (st : GrServerState c) : ReplicaState c Unit where
  store := st.store
  versionVector j := if j = s.1 then 0 else st.versionVector j
  queues := st.replicaUpdateQueues
  making := grMaking s st

abbrev grHandlers (c : Cluster) : Handlers c Unit (GrEvent c) (GrServerState c) :=
  ⟨grKind, grRole, grView, grUpdateRules⟩

/-! ## 2. Quiet handlers -/

section Quiet

variable {s : ServerId c} {st st' : GrServerState c} {r : GrOutcome c} {outs : List (GrOut c)}
  {noTime : Bool}

theorem grSend_event (lpid : Lpid c) (e : GrEvent c) : (grSend lpid e).event = e := by
  cases lpid <;> rfl

theorem grSend_idle {lpid : Lpid c} {e : GrEvent c} (he : (grHandlers c).Idle e) :
    ∀ o ∈ [grSend lpid e], (grHandlers c).Idle o.event :=
  List.forall_mem_singleton.mpr (by rwa [grSend_event])

theorem toServer_idle {s' : ServerId c} {e : GrEvent c} (he : (grHandlers c).Idle e) :
    ∀ o ∈ [(.toServer s' e : GrOut c)], (grHandlers c).Idle o.event :=
  List.forall_mem_singleton.mpr he

theorem self_idle {delay : ℚ} {e : GrEvent c} (he : (grHandlers c).Idle e) :
    ∀ o ∈ [(.self delay e : GrOut c)], (grHandlers c).Idle o.event :=
  List.forall_mem_singleton.mpr he

/-- `gr_update_gst` is not about versions. -/
theorem grUpdateGst_view (s : ServerId c) (st : GrServerState c) (gst : ℚ) :
    grView s (grUpdateGst st gst).1 = grView s st := by
  unfold grUpdateGst grRotxOnGstUpdated
  split <;> rfl

/-- All it hands over are requests for snapshots. -/
theorem grUpdateGst_outs {gst : ℚ} {o : GrOut c} (ho : o ∈ (grUpdateGst st gst).2) :
    ∃ rotx, some rotx ∈ st.rotxStates ∧ o = grSendRotxSnapshotRequest rotx := by
  unfold grUpdateGst grRotxOnGstUpdated at ho
  split at ho
  · obtain ⟨rotx, hm, h⟩ := List.mem_flatMap.mp ho
    cases rotx with
    | none => cases h
    | some rotx =>
      dsimp only [grRotxGstUpdateCallback] at h
      split at h
      · exact ⟨rotx, hm, List.mem_singleton.mp h⟩
      · cases h
  · cases ho

theorem grUpdateGst_idle {gst : ℚ} : ∀ o ∈ (grUpdateGst st gst).2, (grHandlers c).Idle o.event := by
  intro o ho
  obtain ⟨rotx, -, rfl⟩ := grUpdateGst_outs ho
  exact ⟨rfl, fun _ => rfl⟩

/-- A handler that updates the GST and gives the lock back. -/
theorem Handlers.Quiet.updateGst {gst : ℚ} {e : Option (GrEvent c)}
    (hv : grView s st' = grView s (grUpdateGst st gst).1)
    (he : ∀ x ∈ e, grKind x = .unlocked .mutex grLock ∧ ∀ q, (grRole x).job q = none) :
    (grHandlers c).Quiet s st (some (.mutex, grLock))
      { state := st', outs := (grUpdateGst st gst).2, cont := .unlock .mutex grLock e } :=
  .unlock (hv.trans (grUpdateGst_view s st gst)) he grUpdateGst_idle

/-! ### GET and PUT -/

theorem grProcessGetRequestUnlocked_quiet {id : ℕ}
    (h : grProcessGetRequestUnlocked s st id = some r) : (grHandlers c).Quiet s st none r := by
  simp only [grProcessGetRequestUnlocked] at h
  split at h
  · cases h
  split at h <;> cases h
  exact .done rfl (grSend_idle ⟨rfl, fun _ => rfl⟩)

theorem grProcessGetRequest_quiet {q : GrGetRequest c} (h : grProcessGetRequest s st q = some r) :
    (grHandlers c).Quiet s st none r := by
  simp only [grProcessGetRequest] at h
  split at h
  · split at h <;> cases h
    split
    · exact .lock rfl rfl (fun _ => rfl) (toServer_idle ⟨rfl, fun _ => rfl⟩)
    · exact .done rfl (toServer_idle ⟨rfl, fun _ => rfl⟩)
  · split at h
    · cases h
      exact .lock rfl rfl (fun _ => rfl) (List.forall_mem_nil _)
    · exact (grProcessGetRequestUnlocked_quiet h).of_view rfl

theorem grProcessForwardGetRequestLocked_quiet {q : GrGetRequest c}
    (h : grProcessForwardGetRequestLocked st q = some r) :
    (grHandlers c).Quiet s st (some (.mutex, grLock)) r := by
  cases h
  exact .updateGst rfl (by rintro _ ⟨⟩)

theorem grProcessGetRequestLocked_quiet {id : ℕ} (h : grProcessGetRequestLocked st id = some r) :
    (grHandlers c).Quiet s st (some (.mutex, grLock)) r := by
  unfold grProcessGetRequestLocked at h
  split at h <;> cases h
  exact .updateGst rfl (by rintro _ ⟨⟩; exact ⟨rfl, fun _ => rfl⟩)

/-- A PUT that waits for the lock is not stamped. -/
theorem grView_put (s : ServerId c) (st : GrServerState c) {putState : GrPutState c}
    (hp : putState.stamp = none) :
    grView s { st with putStates := ptrArrayPut putState st.putStates } = grView s st := by
  unfold grView
  congr 1
  funext id
  simp only [grMaking, ptrArrayPut_get]
  split
  · rename_i hid
    rw [hid, ptrArrayFree_get]
    simp [hp]
  · rfl

theorem grProcessPutRequest_quiet {q : GrPutRequest c} (h : grProcessPutRequest s st q = some r) :
    (grHandlers c).Quiet s st none r := by
  simp only [grProcessPutRequest] at h
  split at h
  · split at h <;> cases h
    exact .done rfl (toServer_idle ⟨rfl, fun _ => rfl⟩)
  split at h <;> cases h
  · exact .done rfl (self_idle ⟨rfl, fun _ => rfl⟩)
  · exact .lock (grView_put s st rfl) rfl (fun _ => rfl) (List.forall_mem_nil _)

theorem grProcessGetResponse_quiet {q : GrGetResponse c} (h : grProcessGetResponse st q = some r) :
    (grHandlers c).Quiet s st none r := by
  cases h
  exact .done rfl (List.forall_mem_singleton.mpr ⟨rfl, fun _ => rfl⟩)

theorem grProcessPutResponse_quiet {q : GrPutResponse c} (h : grProcessPutResponse st q = some r) :
    (grHandlers c).Quiet s st none r := by
  cases h
  exact .done rfl (List.forall_mem_singleton.mpr ⟨rfl, fun _ => rfl⟩)

/-! ### The global stable time -/

theorem grSendLstToParent_quiet (h : grSendLstToParent s st = some r) :
    (grHandlers c).Quiet s st none r := by
  unfold grSendLstToParent at h
  split at h <;> cases h
  exact .done rfl (toServer_idle ⟨rfl, fun _ => rfl⟩)

theorem grProcessLstFromLeaf_quiet {q : GrLstFromLeaf c}
    (h : grProcessLstFromLeaf s st q = some r) : (grHandlers c).Quiet s st none r := by
  simp only [grProcessLstFromLeaf] at h
  split at h
  · cases h
  split at h
  · split at h
    · cases h
      exact .lock rfl rfl (fun _ => rfl) (List.forall_mem_nil _)
    · exact (grSendLstToParent_quiet h).of_view rfl
  · cases h
    exact .done rfl (List.forall_mem_nil _)

theorem grProcessLstFromLeafRootLocked_quiet (h : grProcessLstFromLeafRootLocked st = some r) :
    (grHandlers c).Quiet s st (some (.mutex, grLock)) r := by
  cases h
  exact .updateGst rfl (by rintro _ ⟨⟩; exact ⟨rfl, fun _ => rfl⟩)

theorem grSendGst_idle (rootGst : GrGstFromRoot) :
    ∀ o ∈ grSendGst s rootGst, (grHandlers c).Idle o.event := by
  intro o ho
  obtain ⟨p, -, rfl⟩ := List.mem_map.mp ho
  exact ⟨rfl, fun _ => rfl⟩

theorem grProcessLstFromLeafRootUnlocked_quiet
    (h : grProcessLstFromLeafRootUnlocked s st = some r) : (grHandlers c).Quiet s st none r := by
  cases h
  exact .done rfl (grSendGst_idle _)

theorem grProcessGstFromRoot_quiet {q : GrGstFromRoot} (h : grProcessGstFromRoot st q = some r) :
    (grHandlers c).Quiet s st none r := by
  cases h
  exact .lock rfl rfl (fun _ => rfl) (List.forall_mem_nil _)

theorem grProcessGstFromRootLocked_quiet {q : GrGstFromRoot}
    (h : grProcessGstFromRootLocked st q = some r) :
    (grHandlers c).Quiet s st (some (.mutex, grLock)) r := by
  cases h
  exact .updateGst rfl (by rintro _ ⟨⟩; exact ⟨rfl, fun _ => rfl⟩)

theorem grProcessGstFromRootUnlocked_quiet {q : GrGstFromRoot}
    (h : grProcessGstFromRootUnlocked s st q = some r) : (grHandlers c).Quiet s st none r := by
  unfold grProcessGstFromRootUnlocked at h
  split at h <;> cases h
  · exact .done rfl (self_idle ⟨rfl, fun _ => rfl⟩)
  · exact .done rfl (grSendGst_idle _)

theorem grProcessStartGstComputation_quiet (h : grProcessStartGstComputation s st = some r) :
    (grHandlers c).Quiet s st none r := by
  simp only [grProcessStartGstComputation] at h
  split at h
  · split at h <;> cases h
    · refine .done (grUpdateGst_view s st _) (List.forall_mem_append.mpr ⟨grUpdateGst_idle, ?_⟩)
      exact self_idle ⟨rfl, fun _ => rfl⟩
    · exact .done rfl (toServer_idle ⟨rfl, fun _ => rfl⟩)
  · cases h

/-! ### Read-only transactions -/

theorem grProcessRotxRequest_quiet {q : GrGetRotxRequest c}
    (h : grProcessRotxRequest s st q = some r) : (grHandlers c).Quiet s st none r := by
  cases h
  refine .done rfl ?_
  split
  · exact List.forall_mem_nil _
  · exact self_idle ⟨rfl, fun _ => rfl⟩

theorem grProcessGetSnapshotRequest_quiet {q : GrGetSnapshotRequest c}
    (h : grProcessGetSnapshotRequest st q = some r) : (grHandlers c).Quiet s st none r := by
  cases h
  exact .lock rfl rfl (fun _ => rfl) (List.forall_mem_nil _)

theorem grProcessGetSnapshotRequestLocked_quiet {id : ℕ}
    (h : grProcessGetSnapshotRequestLocked st id = some r) :
    (grHandlers c).Quiet s st (some (.mutex, grLock)) r := by
  unfold grProcessGetSnapshotRequestLocked at h
  split at h <;> cases h
  exact .updateGst rfl (by rintro _ ⟨⟩; exact ⟨rfl, fun _ => rfl⟩)

theorem grProcessGetSnapshotRequestUnlocked_quiet {id : ℕ}
    (h : grProcessGetSnapshotRequestUnlocked s st id = some r) :
    (grHandlers c).Quiet s st none r := by
  unfold grProcessGetSnapshotRequestUnlocked at h
  split at h <;> cases h
  refine .done rfl fun o ho => ?_
  obtain ⟨i, -, rfl⟩ := List.mem_mapIdx.mp ho
  exact ⟨rfl, fun _ => rfl⟩

theorem grProcessSliceRequestUnlocked_quiet {q : GrSliceRequest c}
    (h : grProcessSliceRequestUnlocked s st q = some r) : (grHandlers c).Quiet s st none r := by
  unfold grProcessSliceRequestUnlocked at h
  split at h <;> cases h
  exact .done rfl (toServer_idle ⟨rfl, fun _ => rfl⟩)

theorem grProcessSliceRequest_quiet {q : GrSliceRequest c}
    (h : grProcessSliceRequest s st q = some r) : (grHandlers c).Quiet s st none r := by
  unfold grProcessSliceRequest at h
  split at h
  · cases h
    exact .lock rfl rfl (fun _ => rfl) (List.forall_mem_nil _)
  · exact grProcessSliceRequestUnlocked_quiet h

theorem grProcessSliceRequestLocked_quiet {q : GrSliceRequest c}
    (h : grProcessSliceRequestLocked st q = some r) :
    (grHandlers c).Quiet s st (some (.mutex, grLock)) r := by
  cases h
  exact .updateGst rfl (by rintro _ ⟨⟩; exact ⟨rfl, fun _ => rfl⟩)

theorem grSendSnapshotResponse_quiet {snapshot : GrSnapshotState c}
    (h : grSendSnapshotResponse s st snapshot = some r) : (grHandlers c).Quiet s st none r := by
  unfold grSendSnapshotResponse grProcessRotxSnapshotResponse at h
  split at h
  · split at h <;> cases h
    exact .done rfl (List.forall_mem_singleton.mpr ⟨rfl, fun _ => rfl⟩)
  · cases h
    exact .done rfl (grSend_idle ⟨rfl, fun _ => rfl⟩)

theorem grProcessSliceResponseUnlocked_quiet {q : GrSliceResponse c}
    (h : grProcessSliceResponseUnlocked s st q = some r) : (grHandlers c).Quiet s st none r := by
  simp only [grProcessSliceResponseUnlocked] at h
  split at h
  · cases h
  split at h
  · exact (grSendSnapshotResponse_quiet h).of_view rfl
  · cases h
    exact .done rfl (List.forall_mem_nil _)

theorem grProcessSliceResponse_quiet {q : GrSliceResponse c}
    (h : grProcessSliceResponse s st q = some r) : (grHandlers c).Quiet s st none r := by
  unfold grProcessSliceResponse at h
  split at h
  · cases h
    exact .lock rfl rfl (fun _ => rfl) (List.forall_mem_nil _)
  · exact grProcessSliceResponseUnlocked_quiet h

theorem grProcessSliceResponseLocked_quiet {q : GrSliceResponse c}
    (h : grProcessSliceResponseLocked st q = some r) :
    (grHandlers c).Quiet s st (some (.mutex, grLock)) r := by
  cases h
  exact .updateGst rfl (by rintro _ ⟨⟩; exact ⟨rfl, fun _ => rfl⟩)

/-- The own entry of the version vector is not part of the view. -/
theorem grProcessClockTickLocked_quiet (h : grProcessClockTickLocked s st = some r) :
    (grHandlers c).Quiet s st (some (.mutex, grLock)) r := by
  unfold grProcessClockTickLocked at h
  have he : ∀ b, ∀ x ∈ some (.clockTickUnlocked b : GrEvent c),
      grKind x = .unlocked .mutex grLock ∧ ∀ q, (grRole x).job q = none := by
    rintro b _ ⟨⟩
    exact ⟨rfl, fun _ => by cases b <;> rfl⟩
  split at h <;> cases h
  · refine .unlock ?_ (he true) (List.forall_mem_nil _)
    show grView s _ = grView s st
    unfold grView
    congr 1
    exact view_own _ _
  · exact .unlock rfl (he false) (List.forall_mem_nil _)

end Quiet

/-! ## 3. The nine handlers that are not quiet -/

section Moves

variable {s : ServerId c} {st : GrServerState c} {e : GrEvent c} {r : GrOutcome c}

/-- What is being made at a server, after one PUT state was set. -/
theorem grMaking_set {id : ℕ} {putState : GrPutState c}
    (h : ptrArrayGet st.putStates id = some putState)
    (x : Option (GrPutState c)) (st' : GrServerState c)
    (h' : st'.putStates = ptrArraySet st.putStates id x) :
    grMaking s st' = Function.update (grMaking s st) id (x.bind fun putState =>
      putState.stamp.bind fun stamp =>
        if stamp.discarded then none else some (grPutUpdate s putState stamp)) := by
  funext i
  rw [grMaking, h', ptrArraySet_get h, Function.update_apply]
  split <;> rfl

theorem grProcessPutRequestLocked_some {id : ℕ}
    (h : grProcessPutRequestLocked s st id = some r) :
    ∃ putState, ptrArrayGet st.putStates id = some putState ∧ ownsKey s putState.key ∧
      r = grPutOutcome s st id putState
        (grPutValue st putState.key (grPutItem s st putState)) := by
  unfold grProcessPutRequestLocked at h
  split at h
  · cases h
  · rename_i putState hget
    split at h <;> cases h
    exact ⟨putState, hget, by assumption, rfl⟩

/-- A PUT leaves all other keys alone. -/
theorem grPutOutcome_store (id : ℕ) {putState : GrPutState c} {k : Key}
    (hk : k ≠ putState.key) :
    (grPutOutcome s st id putState
      (grPutValue st putState.key (grPutItem s st putState))).state.store k = st.store k := by
  cases hput : grPutValue st putState.key (grPutItem s st putState) with
  | none => rfl
  | some store =>
    show store k = st.store k
    rw [(putValue_some hput).1, Function.update_of_ne hk]

theorem grProcessPutRequestLocked_moves {id : ℕ} (h : grProcessPutRequestLocked s st id = some r) :
    (grHandlers c).Moves s st.clock st (.putRequestLocked id) r := by
  obtain ⟨putState, hget, -, rfl⟩ := grProcessPutRequestLocked_some h
  have hmk := fun store => grMaking_set (s := s) hget _
    (grPutOutcome s st id putState store).state rfl
  cases hput : grPutValue st putState.key (grPutItem s st putState) with
  | none =>
    have hv : grView s (grPutOutcome s st id putState none).state =
        { grView s st with making := Function.update (grView s st).making id none } := by
      unfold grView
      rw [hmk none]
      congr 1
      exact view_own _ _
    exact .intro (a := []) (b := []) ⟨rfl, rfl, by rintro _ ⟨⟩; rfl⟩ (List.forall_mem_nil _)
      outJobs_nil rfl hv (.discard id) rfl
  | some store =>
    obtain ⟨hstore, hold⟩ := putValue_some hput
    have hv : grView s (grPutOutcome s st id putState (some store)).state =
        { grView s st with
          store := Function.update (grView s st).store putState.key
            (grPutItem s st putState :: (grView s st).store putState.key)
          making := Function.update (grView s st).making id
            (some (grPutUpdate s putState (grPutStamp st putState.key false))) } := by
      unfold grView
      rw [hmk (some store)]
      simp only [ReplicaState.mk.injEq]
      exact ⟨hstore, view_own _ _, rfl, rfl⟩
    exact .intro (a := []) (b := []) ⟨rfl, rfl, by rintro _ ⟨⟩; rfl⟩ (List.forall_mem_nil _)
      outJobs_nil rfl hv
      (.put id (grPutUpdate s putState (grPutStamp st putState.key false)) rfl rfl hold) rfl

theorem grProcessPutRequestUnlocked_some {id : ℕ}
    (h : grProcessPutRequestUnlocked s st id = some r) :
    ∃ putState stamp, ptrArrayGet st.putStates id = some putState ∧ putState.stamp = some stamp ∧
      r = { state := { st with putStates := ptrArraySet st.putStates id none }
            outs := grSend putState.destination (.putResponse (grPutAnswer s putState stamp)) ::
              if stamp.discarded then []
              else grReplicateValue s (grPutUpdate s putState stamp) } := by
  unfold grProcessPutRequestUnlocked at h
  split at h
  · cases h
  · rename_i putState hget
    split at h <;> cases h
    exact ⟨putState, _, hget, by assumption, rfl⟩

theorem grProcessPutRequestUnlocked_moves {id : ℕ}
    (h : grProcessPutRequestUnlocked s st id = some r) :
    (grHandlers c).Moves s st.clock st (.putRequestUnlocked id) r := by
  obtain ⟨putState, stamp, hget, hstamp, rfl⟩ := grProcessPutRequestUnlocked_some h
  have hbefore : (grView s st).making id =
      if stamp.discarded then none else some (grPutUpdate s putState stamp) := by
    show grMaking s st id = _
    simp [grMaking, hget, hstamp]
  have hv : grView s { st with putStates := ptrArraySet st.putStates id none } =
      { grView s st with making := Function.update (grView s st).making id none } := by
    unfold grView
    congr 1
    exact grMaking_set hget none _ rfl
  have hans : ∀ o ∈ [grSend putState.destination (.putResponse (grPutAnswer s putState stamp))],
      (grHandlers c).Idle o.event := grSend_idle ⟨rfl, fun _ => rfl⟩
  by_cases hd : stamp.discarded
  · rw [if_pos hd] at hbefore ⊢
    have hsame : Function.update (grView s st).making id none = (grView s st).making := by
      rw [← hbefore, Function.update_eq_self]
    rw [hsame] at hv
    exact .intro (b := []) trivial (fun o ho => (hans o ho).1)
      (outJobs_idle fun o ho => (hans o ho).2) rfl hv (.discarded hbefore) rfl
  · rw [if_neg hd] at hbefore ⊢
    refine .intro (a := (others s).map fun j => .update j (grPutUpdate s putState stamp).stored)
      (b := []) (J := updates (others s) (grPutUpdate s putState stamp).stored) trivial ?_
      (fun p => ?_) rfl hv (.made hbefore (fun j => mem_others) (others_nodup s))
      (by rw [List.append_nil]; rfl)
    · intro o ho
      rcases List.mem_cons.mp ho with rfl | ho
      · exact (hans _ (List.mem_singleton_self _)).1
      · obtain ⟨s', -, rfl⟩ := List.mem_map.mp ho
        rfl
    · rw [show ∀ (a : GrOut c) l, a :: l = [a] ++ l from fun _ _ => rfl, outJobs_append,
        outJobs_idle (fun o ho => (hans o ho).2), ite_self, List.nil_append]
      exact outJobs_broadcast (fun _ => rfl) p

/-- The work on a queue goes on with the next update. -/
theorem grReplicaUpdateOutcome_moves {source : Replica c}
    {q : List (GrReplicaUpdate c) × Option (GrReplicaUpdate c)} {noTime : Bool}
    (hk : (grKind e).held = none)
    (hm : Move (grUpdateRules s) s.1 st.clock (grRole e) (grView s st)
      { grView s st with queues := Function.update (grView s st).queues source q.1 }
      (next s.1 (q.2.map ReplicaUpdate.stored))) :
    (grHandlers c).Moves s st.clock st e
      { grReplicaUpdateOutcome st source q with noTime := noTime } := by
  obtain ⟨q, n⟩ := q
  cases n with
  | none =>
    refine .intro (a := []) (b := []) ?_ (List.forall_mem_nil _) outJobs_nil rfl rfl hm rfl
    rw [hk]
    exact trivial
  | some u =>
    refine .intro (a := []) (b := [.install s.1 u.stored]) ?_ (List.forall_mem_nil _) outJobs_nil
      rfl rfl hm rfl
    rw [hk]
    exact rfl

theorem grProcessReplicaUpdate_moves {u : GrReplicaUpdate c}
    (h : grProcessReplicaUpdate s st u = some r) :
    (grHandlers c).Moves s st.clock st (.replicaUpdate u) r := by
  obtain ⟨q, hq, rfl⟩ := Option.map_eq_some_iff.mp h
  exact grReplicaUpdateOutcome_moves rfl (.update hq)

theorem grProcessReplicaUpdateUnlocked_moves {u : GrReplicaUpdate c}
    (h : grProcessReplicaUpdateUnlocked s st u = some r) :
    (grHandlers c).Moves s st.clock st (.replicaUpdateUnlocked u) r := by
  obtain ⟨q, hq, rfl⟩ := Option.map_eq_some_iff.mp h
  exact grReplicaUpdateOutcome_moves rfl (.leave hq)

theorem grProcessReplicaUpdateLocked_moves {u : GrReplicaUpdate c}
    (h : grProcessReplicaUpdateLocked s st u = some r) :
    (grHandlers c).Moves s st.clock st (.replicaUpdateLocked u) r := by
  unfold grProcessReplicaUpdateLocked at h
  split at h <;> cases h
  refine .intro (a := []) (b := [.leave s.1 u.stored]) ⟨rfl, rfl, by rintro _ ⟨⟩; rfl⟩
    (List.forall_mem_nil _) outJobs_nil rfl ?_ .install rfl
  show grView s _ = _
  unfold grView
  congr 1
  exact view_entry _ _ _

theorem grProcessHeartbeat_moves {q : GrHeartbeat c} (h : grProcessHeartbeat st q = some r) :
    (grHandlers c).Moves s st.clock st (.heartbeat q) r := by
  cases h
  by_cases hlt : st.versionVector q.replica < q.time
  · rw [if_pos hlt]
    exact .intro (a := []) (b := [.raise s.1 q.replica q.time]) rfl (List.forall_mem_nil _)
      outJobs_nil rfl rfl (.beat true) rfl
  · rw [if_neg hlt]
    exact .intro (a := []) (b := []) trivial (List.forall_mem_nil _) outJobs_nil rfl rfl
      (.beat false) rfl

theorem grProcessHeartbeatLocked_moves {q : GrHeartbeat c}
    (h : grProcessHeartbeatLocked st q = some r) :
    (grHandlers c).Moves s st.clock st (.heartbeatLocked q) r := by
  cases h
  refine .intro (a := []) (b := []) ⟨rfl, rfl, by rintro _ ⟨⟩⟩ (List.forall_mem_nil _) outJobs_nil
    rfl ?_ .raise rfl
  show grView s _ = _
  unfold grView
  congr 1
  exact view_raise _ _ _

/-- What a clock tick sends. -/
theorem grSendHeartbeat_jobs (sendTime : Bool) (p : Partition c) :
    outJobs (grHandlers c).role s p
        (grSendHeartbeat s st sendTime ++ [.self c.clockInterval .clockTick]) =
      if p = s.2 then (others s).map fun j => .beat j s.1 (if sendTime then st.clock else 0)
      else [] := by
  have htick : ∀ o ∈ [(.self c.clockInterval .clockTick : GrOut c)], ∀ q,
      (grRole o.event).job q = none := List.forall_mem_singleton.mpr fun _ => rfl
  rw [outJobs_append, outJobs_idle htick, ite_self, List.append_nil]
  exact outJobs_broadcast (fun _ => rfl) p

theorem grSendHeartbeat_plain {sendTime : Bool} :
    ∀ o ∈ grSendHeartbeat s st sendTime ++ [.self c.clockInterval .clockTick],
      grKind o.event = .plain := by
  intro o ho
  rcases List.mem_append.mp ho with ho | ho
  · obtain ⟨s', -, rfl⟩ := List.mem_map.mp ho
    rfl
  · rw [List.mem_singleton.mp ho]
    rfl

theorem grProcessClockTickUnlocked_moves {sendTime : Bool}
    (h : grProcessClockTickUnlocked s st sendTime = some r) :
    (grHandlers c).Moves s st.clock st (.clockTickUnlocked sendTime) r := by
  cases h
  cases sendTime
  · exact .intro (b := []) (J := beats (others s) s.1 0) trivial grSendHeartbeat_plain
      (grSendHeartbeat_jobs false) rfl rfl (.tick fun j hj => mem_others.mp hj)
      (by rw [List.append_nil]; rfl)
  · exact .intro (b := []) (J := beats (others s) s.1 st.clock) trivial grSendHeartbeat_plain
      (grSendHeartbeat_jobs true) rfl rfl (.promise fun j hj => mem_others.mp hj)
      (by rw [List.append_nil]; rfl)

theorem grProcessClockTick_moves (h : grProcessClockTick s st = some r) :
    (grHandlers c).Moves s st.clock st .clockTick r := by
  unfold grProcessClockTick at h
  split at h
  · cases h
    exact .intro (a := []) (b := []) rfl (List.forall_mem_nil _) outJobs_nil rfl rfl
      (.tick (List.forall_mem_nil _)) rfl
  · cases h
    exact .intro (b := []) (J := beats (others s) s.1 0) trivial grSendHeartbeat_plain
      (grSendHeartbeat_jobs false) rfl rfl (.tick fun j hj => mem_others.mp hj)
      (by rw [List.append_nil]; rfl)

end Moves

/-! ## 4. The protocol replicates versions -/

theorem grProcessEvent_moves {s : ServerId c} {st : GrServerState c} {e : GrEvent c}
    {r : GrOutcome c} (h : grProcessEvent s st e = some r) :
    (grHandlers c).Moves s st.clock st e r := by
  cases e with
  | getRequest => exact (grProcessGetRequest_quiet h).moves rfl
  | forwardGetRequestLocked => exact (grProcessForwardGetRequestLocked_quiet h).moves rfl
  | getRequestLocked => exact (grProcessGetRequestLocked_quiet h).moves rfl
  | getRequestUnlocked => exact (grProcessGetRequestUnlocked_quiet h).moves rfl
  | getResponse => exact (grProcessGetResponse_quiet h).moves rfl
  | putRequest => exact (grProcessPutRequest_quiet h).moves rfl
  | putRequestLocked => exact grProcessPutRequestLocked_moves h
  | putRequestUnlocked => exact grProcessPutRequestUnlocked_moves h
  | putResponse => exact (grProcessPutResponse_quiet h).moves rfl
  | replicaUpdate => exact grProcessReplicaUpdate_moves h
  | replicaUpdateLocked => exact grProcessReplicaUpdateLocked_moves h
  | replicaUpdateUnlocked => exact grProcessReplicaUpdateUnlocked_moves h
  | lstFromLeaf => exact (grProcessLstFromLeaf_quiet h).moves rfl
  | lstFromLeafRootLocked => exact (grProcessLstFromLeafRootLocked_quiet h).moves rfl
  | lstFromLeafRootUnlocked => exact (grProcessLstFromLeafRootUnlocked_quiet h).moves rfl
  | startGstComputation => exact (grProcessStartGstComputation_quiet h).moves rfl
  | gstFromRoot => exact (grProcessGstFromRoot_quiet h).moves rfl
  | gstFromRootLocked => exact (grProcessGstFromRootLocked_quiet h).moves rfl
  | gstFromRootUnlocked => exact (grProcessGstFromRootUnlocked_quiet h).moves rfl
  | getSnapshotRequest => exact (grProcessGetSnapshotRequest_quiet h).moves rfl
  | getSnapshotRequestLocked => exact (grProcessGetSnapshotRequestLocked_quiet h).moves rfl
  | getSnapshotRequestUnlocked => exact (grProcessGetSnapshotRequestUnlocked_quiet h).moves rfl
  | sliceRequest => exact (grProcessSliceRequest_quiet h).moves rfl
  | sliceRequestLocked => exact (grProcessSliceRequestLocked_quiet h).moves rfl
  | sliceRequestUnlocked => exact (grProcessSliceRequestUnlocked_quiet h).moves rfl
  | sliceResponse => exact (grProcessSliceResponse_quiet h).moves rfl
  | sliceResponseLocked => exact (grProcessSliceResponseLocked_quiet h).moves rfl
  | sliceResponseUnlocked => exact (grProcessSliceResponseUnlocked_quiet h).moves rfl
  | rotxRequest => exact (grProcessRotxRequest_quiet h).moves rfl
  | clockTick => exact grProcessClockTick_moves h
  | clockTickLocked => exact (grProcessClockTickLocked_quiet h).moves rfl
  | clockTickUnlocked => exact grProcessClockTickUnlocked_moves h
  | heartbeat => exact grProcessHeartbeat_moves h
  | heartbeatLocked => exact grProcessHeartbeatLocked_moves h
  | getSnapshotResponse => cases h
  | rotxResponse => cases h
  | clientTick => cases h

theorem grServerProcessEvent_some {s : ServerId c} {t : ℚ} {st : GrServerState c} {e : GrEvent c}
    {r : GrOutcome c} (h : grServerProcessEvent s t st e = some r) :
    grProcessEvent s { st with now := t, clock := c.clock s t } e = some r := by
  unfold grServerProcessEvent at h
  split at h
  · exact h
  · cases h

theorem grServerProcessEvent_moves {s : ServerId c} {t : ℚ} {st : GrServerState c} {e : GrEvent c}
    {r : GrOutcome c} (h : grServerProcessEvent s t st e = some r) :
    (grHandlers c).Moves s (c.clock s t) { st with now := t, clock := c.clock s t } e r :=
  grProcessEvent_moves (grServerProcessEvent_some h)

/-- What a client hands over. -/
theorem grClientDecide_outs {k : ClientId c} {t : ℚ} {st : GrClientState c} {d : Decision}
    {r : GrClientState c × List (GrOut c)} (h : grClientDecide k t st d = some r) :
    ∀ o ∈ r.2, grKind o.event = .plain ∧ grRole o.event = .other := by
  unfold grClientDecide grClientSend at h
  split at h
  · cases h
    exact List.forall_mem_nil _
  · split at h <;> cases h
    exact List.forall_mem_singleton.mpr ⟨rfl, rfl⟩
  all_goals
    obtain ⟨st', -, rfl⟩ := Option.map_eq_some_iff.mp h
    exact List.forall_mem_singleton.mpr ⟨rfl, rfl⟩

theorem grClientProcessEvent_outs {k : ClientId c} {t : ℚ} {st : GrClientState c} {d : Decision}
    {e : GrEvent c} {r : GrClientState c × List (GrOut c)}
    (h : grClientProcessEvent k t d st e = some r) :
    ∀ o ∈ r.2, grKind o.event = .plain ∧ grRole o.event = .other := by
  unfold grClientProcessEvent at h
  split at h
  · cases h
  · exact grClientDecide_outs h

/-- The roles of which only one kind of event has each. -/
theorem grRole_eq_iff {e : GrEvent c} :
    (∀ id, grRole e = .put id ↔ e = .putRequestLocked id) ∧
      (∀ id, grRole e = .made id ↔ e = .putRequestUnlocked id) ∧
      (∀ u, grRole e = .update u ↔ e = .replicaUpdate u) ∧
      (∀ u, grRole e = .install u ↔ e = .replicaUpdateLocked u) ∧
      (∀ u, grRole e = .leave u ↔ e = .replicaUpdateUnlocked u) ∧
      (grRole e = .promise ↔ e = .clockTickUnlocked true) := by
  unfold grRole
  split <;> simp_all

theorem grRole_put {e : GrEvent c} {id : ℕ} : grRole e = .put id ↔ e = .putRequestLocked id :=
  grRole_eq_iff.1 id

theorem grRole_made {e : GrEvent c} {id : ℕ} :
    grRole e = .made id ↔ e = .putRequestUnlocked id :=
  grRole_eq_iff.2.1 id

theorem grRole_update {e : GrEvent c} {u : GrReplicaUpdate c} :
    grRole e = .update u ↔ e = .replicaUpdate u :=
  grRole_eq_iff.2.2.1 u

theorem grRole_install {e : GrEvent c} {u : GrReplicaUpdate c} :
    grRole e = .install u ↔ e = .replicaUpdateLocked u :=
  grRole_eq_iff.2.2.2.1 u

theorem grRole_leave {e : GrEvent c} {u : GrReplicaUpdate c} :
    grRole e = .leave u ↔ e = .replicaUpdateUnlocked u :=
  grRole_eq_iff.2.2.2.2.1 u

theorem grRole_promise {e : GrEvent c} : grRole e = .promise ↔ e = .clockTickUnlocked true :=
  grRole_eq_iff.2.2.2.2.2

/-- **The GentleRain protocol replicates versions.** -/
def grReplicating (c : Cluster) : Replicating (grProgram c) Unit where
  view := grView
  role := grRole
  kind := grKind
  lock := grLock
  putKey st id := (ptrArrayGet st.putStates id).map GrPutState.key
  rules := grUpdateRules
  rules_self _ := rfl
  rules_owns _ := rfl
  disciplined := .of_suits (fun h => (grServerProcessEvent_moves h).suits)
    (fun h ho => (grServerProcessEvent_moves h).outs _ ho)
    (fun h ho => (grClientProcessEvent_outs h _ ho).1)
  kind_update h := by rw [grRole_update.mp h]; rfl
  kind_put h := by rw [grRole_put.mp h]; rfl
  kind_made h := by rw [grRole_made.mp h]; rfl
  kind_promise h := by rw [grRole_promise.mp h]; rfl
  put {s t st e r id} h he := by
    obtain rfl := grRole_put.mp he
    obtain ⟨putState, -, -, rfl⟩ := grProcessPutRequestLocked_some (grServerProcessEvent_some h)
    exact ⟨rfl, _, rfl, rfl⟩
  put_key {s t st e r id} h he := by
    obtain rfl := grRole_put.mp he
    obtain ⟨putState, hget, hown, rfl⟩ :=
      grProcessPutRequestLocked_some (grServerProcessEvent_some h)
    refine ⟨putState.key, Option.mem_map_of_mem _ hget, hown, fun k hk => ?_⟩
    exact grPutOutcome_store id hk
  move h := (grServerProcessEvent_moves h).move
  client h o ho := (grClientProcessEvent_outs h o ho).2

/-- At the start there are no versions. -/
theorem grWorld_fresh (setup : Setup c (GrEvent c)) :
    (grReplicating c).Fresh (grWorld setup).config where
  exclusive := Setup.exclusive rfl rfl rfl
  now_pos := setup.start_pos
  view s := by
    show grView s (grInitState c) = _
    unfold grView grInitState
    congr 1
    funext j
    exact ite_self _
  jobs p := by
    refine Multiset.eq_zero_of_forall_notMem fun j hj => ?_
    obtain ⟨x, hx, hj⟩ := (Multiset.mem_filterMap _ _).mp hj
    rcases Setup.mem_pool hx with ⟨s, rfl, -⟩ | ⟨s, rfl⟩ | ⟨k, rfl⟩
    · change (if s.2 = p then none else none) = some j at hj
      rw [ite_self] at hj
      cases hj
    · change (if s.2 = p then none else none) = some j at hj
      rw [ite_self] at hj
      cases hj
    · cases hj
  unlocked s e u hm := by
    rcases Setup.mem_pool hm with ⟨_, h, -⟩ | ⟨_, h⟩ | ⟨_, h⟩ <;> cases h

end CCSim
