/-
# What the handlers of `grv` do with versions

The counterpart of `Gr/Versions.lean`.  The same nine events have to do with versions, but two
locks share the work differently: `lock_vv` covers PUTs, clock ticks, installed updates and
heartbeats of all sources, and `lock_gsv` only the global stable vector.  An update that conflicts
and is newer than the latest item is installed here, so a queue never stalls.
-/
import CCSim.Grv.Protocol
import CCSim.Replicas.Handlers
import CCSim.Replicas.Results

namespace CCSim

open Replication

variable {c : Cluster}

/-! ## 1. Kinds and roles of events -/

/-- Under which lock an event runs. -/
def grvKind : GrvEvent c → Kind
  | .forwardedGetRequestLocked _ => .locked .mutex grvLockGsv
  | .getRequestLocked _ => .locked .mutex grvLockGsv
  | .getRequestUnlocked _ => .unlocked .mutex grvLockGsv
  | .putRequestLocked _ => .locked .mutex grvLockVv
  | .putRequestUnlocked _ => .unlocked .mutex grvLockVv
  | .replicaUpdateVvLocked _ => .locked .mutex grvLockVv
  | .replicaUpdateVvUnlocked _ => .unlocked .mutex grvLockVv
  | .lstFromLeafRootLocked => .locked .mutex grvLockGsv
  | .lstFromLeafRootUnlocked => .unlocked .mutex grvLockGsv
  | .gstFromRootLocked _ => .locked .mutex grvLockGsv
  | .gstFromRootUnlocked => .unlocked .mutex grvLockGsv
  | .sliceRequestLocked _ => .locked .mutex grvLockGsv
  | .sliceRequestUnlocked _ => .unlocked .mutex grvLockGsv
  | .rotxRequestLocked _ => .locked .mutex grvLockGsv
  | .rotxRequestUnlocked _ => .unlocked .mutex grvLockGsv
  | .clockTickLocked => .locked .mutex grvLockVv
  | .clockTickUnlocked _ => .unlocked .mutex grvLockVv
  | .heartbeatLocked _ => .locked .mutex grvLockVv
  | _ => .plain

/-- What an event has to do with versions. -/
def grvRole : GrvEvent c → Role c (TimeVector c)
  | .putRequestLocked id => .put id
  | .putRequestUnlocked id => .made id
  | .replicaUpdate update => .update update
  | .replicaUpdateVvLocked update => .install update
  | .replicaUpdateVvUnlocked update => .leave update
  | .heartbeat heartbeat => .beat heartbeat.replica heartbeat.time
  | .heartbeatLocked heartbeat => .raise heartbeat.replica heartbeat.time
  | .clockTickUnlocked true => .promise
  | .clockTickUnlocked false => .tick
  | .clockTick => .tick
  | _ => .other

/-- The update of a PUT that is stamped and not discarded. -/
def grvMaking (s : ServerId c) (st : GrvServerState c) (id : ℕ) : Option (GrvReplicaUpdate c) :=
  (ptrArrayGet st.putStates id).bind fun putState => putState.stamp.bind fun stamp =>
    if stamp.discarded then none else some (grvPutUpdate s putState stamp)

/-- The part of a server's state that is about versions. -/
def grvView (s : ServerId c) (st : GrvServerState c) : ReplicaState c (TimeVector c) where
  store := st.store
  versionVector j := if j = s.1 then 0 else st.versionVector j
  queues := st.replicaUpdateQueues
  making := grvMaking s st

abbrev grvHandlers (c : Cluster) : Handlers c (TimeVector c) (GrvEvent c) (GrvServerState c) :=
  ⟨grvKind, grvRole, grvView, grvUpdateRules⟩

/-! ## 2. Quiet handlers -/

section Quiet

variable {s : ServerId c} {st st' : GrvServerState c} {r : GrvOutcome c}

theorem grvSend_event (lpid : Lpid c) (e : GrvEvent c) : (grvSend lpid e).event = e := by
  cases lpid <;> rfl

theorem grvSend_idle {lpid : Lpid c} {e : GrvEvent c} (he : (grvHandlers c).Idle e) :
    ∀ o ∈ [grvSend lpid e], (grvHandlers c).Idle o.event :=
  List.forall_mem_singleton.mpr (by rwa [grvSend_event])

theorem grvToServer_idle {s' : ServerId c} {e : GrvEvent c} (he : (grvHandlers c).Idle e) :
    ∀ o ∈ [(.toServer s' e : GrvOut c)], (grvHandlers c).Idle o.event :=
  List.forall_mem_singleton.mpr he

theorem grvSelf_idle {delay : ℚ} {e : GrvEvent c} (he : (grvHandlers c).Idle e) :
    ∀ o ∈ [(.self delay e : GrvOut c)], (grvHandlers c).Idle o.event :=
  List.forall_mem_singleton.mpr he

/-- A handler that updates the global stable vector and gives the lock back. -/
theorem Handlers.Quiet.updateGstVector {v : TimeVector c} {e : Option (GrvEvent c)}
    (he : ∀ x ∈ e, grvKind x = .unlocked .mutex grvLockGsv ∧ ∀ q, (grvRole x).job q = none) :
    (grvHandlers c).Quiet s st (some (.mutex, grvLockGsv))
      { state := grvUpdateGstVector st v, cont := .unlock .mutex grvLockGsv e } :=
  .unlock rfl he (List.forall_mem_nil _)

/-! ### GET and PUT -/

theorem grvProcessGetRequestUnlocked_quiet {q : GrvGetRequest c}
    (h : grvProcessGetRequestUnlocked s st q = some r) : (grvHandlers c).Quiet s st none r := by
  unfold grvProcessGetRequestUnlocked at h
  split at h <;> cases h
  exact .done rfl (grvSend_idle ⟨rfl, fun _ => rfl⟩)

theorem grvProcessGetRequest_quiet {q : GrvGetRequest c}
    (h : grvProcessGetRequest s st q = some r) : (grvHandlers c).Quiet s st none r := by
  simp only [grvProcessGetRequest] at h
  split at h
  · split at h <;> cases h
    split
    · exact .lock rfl rfl (fun _ => rfl) (grvToServer_idle ⟨rfl, fun _ => rfl⟩)
    · exact .done rfl (grvToServer_idle ⟨rfl, fun _ => rfl⟩)
  split at h
  · cases h
    exact .lock rfl rfl (fun _ => rfl) (List.forall_mem_nil _)
  · exact grvProcessGetRequestUnlocked_quiet h

theorem grvProcessForwardedGetRequestLocked_quiet {q : GrvGetRequest c}
    (h : grvProcessForwardedGetRequestLocked st q = some r) :
    (grvHandlers c).Quiet s st (some (.mutex, grvLockGsv)) r := by
  cases h
  exact .updateGstVector (by rintro _ ⟨⟩)

theorem grvProcessGetRequestLocked_quiet {q : GrvGetRequest c}
    (h : grvProcessGetRequestLocked st q = some r) :
    (grvHandlers c).Quiet s st (some (.mutex, grvLockGsv)) r := by
  cases h
  exact .updateGstVector (by rintro _ ⟨⟩; exact ⟨rfl, fun _ => rfl⟩)

/-- A PUT that waits for the lock is not stamped. -/
theorem grvView_put (s : ServerId c) (st : GrvServerState c) {putState : GrvPutState c}
    (hp : putState.stamp = none) :
    grvView s { st with putStates := ptrArrayPut putState st.putStates } = grvView s st := by
  unfold grvView
  congr 1
  funext id
  simp only [grvMaking, ptrArrayPut_get]
  split
  · rename_i hid
    rw [hid, ptrArrayFree_get]
    simp [hp]
  · rfl

theorem grvProcessPutRequest_quiet {q : GrvPutRequest c}
    (h : grvProcessPutRequest s st q = some r) : (grvHandlers c).Quiet s st none r := by
  simp only [grvProcessPutRequest] at h
  split at h
  · split at h <;> cases h
    exact .done rfl (grvToServer_idle ⟨rfl, fun _ => rfl⟩)
  split at h <;> cases h
  · exact .done rfl (grvSelf_idle ⟨rfl, fun _ => rfl⟩)
  · exact .lock (grvView_put s st rfl) rfl (fun _ => rfl) (List.forall_mem_nil _)

theorem grvProcessGetResponse_quiet {q : GrvGetResponse c}
    (h : grvProcessGetResponse st q = some r) : (grvHandlers c).Quiet s st none r := by
  cases h
  exact .done rfl (List.forall_mem_singleton.mpr ⟨rfl, fun _ => rfl⟩)

theorem grvProcessPutResponse_quiet {q : GrvPutResponse c}
    (h : grvProcessPutResponse st q = some r) : (grvHandlers c).Quiet s st none r := by
  cases h
  exact .done rfl (List.forall_mem_singleton.mpr ⟨rfl, fun _ => rfl⟩)

/-! ### The global stable vector -/

theorem grvSendLstToParent_quiet (h : grvSendLstToParent s st = some r) :
    (grvHandlers c).Quiet s st none r := by
  unfold grvSendLstToParent at h
  split at h <;> cases h
  exact .done rfl (grvToServer_idle ⟨rfl, fun _ => rfl⟩)

theorem grvProcessLstFromLeaf_quiet {q : GrvLstFromLeaf c}
    (h : grvProcessLstFromLeaf s st q = some r) : (grvHandlers c).Quiet s st none r := by
  simp only [grvProcessLstFromLeaf] at h
  split at h
  · cases h
  split at h
  · split at h
    · cases h
      exact .lock rfl rfl (fun _ => rfl) (List.forall_mem_nil _)
    · exact (grvSendLstToParent_quiet h).of_view rfl
  · cases h
    exact .done rfl (List.forall_mem_nil _)

theorem grvProcessLstFromLeafRootLocked_quiet (h : grvProcessLstFromLeafRootLocked st = some r) :
    (grvHandlers c).Quiet s st (some (.mutex, grvLockGsv)) r := by
  cases h
  exact .updateGstVector (by rintro _ ⟨⟩; exact ⟨rfl, fun _ => rfl⟩)

theorem grvSendGst_idle (rootGst : GrvGstFromRoot c) :
    ∀ o ∈ grvSendGst s rootGst, (grvHandlers c).Idle o.event := by
  intro o ho
  obtain ⟨p, -, rfl⟩ := List.mem_map.mp ho
  exact ⟨rfl, fun _ => rfl⟩

theorem grvProcessLstFromLeafRootUnlocked_quiet
    (h : grvProcessLstFromLeafRootUnlocked s st = some r) :
    (grvHandlers c).Quiet s st none r := by
  cases h
  exact .done rfl (grvSendGst_idle _)

theorem grvProcessGstFromRoot_quiet {q : GrvGstFromRoot c}
    (h : grvProcessGstFromRoot s st q = some r) : (grvHandlers c).Quiet s st none r := by
  cases h
  exact .lock rfl rfl (fun _ => rfl) (grvSendGst_idle _)

theorem grvProcessGstFromRootLocked_quiet {q : GrvGstFromRoot c}
    (h : grvProcessGstFromRootLocked st q = some r) :
    (grvHandlers c).Quiet s st (some (.mutex, grvLockGsv)) r := by
  cases h
  exact .updateGstVector (by rintro _ ⟨⟩; exact ⟨rfl, fun _ => rfl⟩)

theorem grvProcessGstFromRootUnlocked_quiet (h : grvProcessGstFromRootUnlocked s st = some r) :
    (grvHandlers c).Quiet s st none r := by
  cases h
  refine .done rfl ?_
  split
  · exact grvSelf_idle ⟨rfl, fun _ => rfl⟩
  · exact List.forall_mem_nil _

theorem grvProcessStartGstComputation_quiet (h : grvProcessStartGstComputation s st = some r) :
    (grvHandlers c).Quiet s st none r := by
  simp only [grvProcessStartGstComputation] at h
  split at h
  · split at h <;> cases h
    · exact .done rfl (grvSelf_idle ⟨rfl, fun _ => rfl⟩)
    · exact .done rfl (grvToServer_idle ⟨rfl, fun _ => rfl⟩)
  · cases h

/-! ### Read-only transactions -/

theorem grvProcessRotxRequestUnlocked_quiet {q : GrvRotxRequest c}
    (h : grvProcessRotxRequestUnlocked s st q = some r) : (grvHandlers c).Quiet s st none r := by
  cases h
  refine .done rfl fun o ho => ?_
  obtain ⟨p, -, hp⟩ := List.mem_filterMap.mp ho
  split at hp <;> cases hp
  exact ⟨rfl, fun _ => rfl⟩

theorem grvProcessRotxRequest_quiet {q : GrvRotxRequest c}
    (h : grvProcessRotxRequest s st q = some r) : (grvHandlers c).Quiet s st none r := by
  unfold grvProcessRotxRequest at h
  split at h
  · cases h
    exact .lock rfl rfl (fun _ => rfl) (List.forall_mem_nil _)
  · exact grvProcessRotxRequestUnlocked_quiet h

theorem grvProcessRotxRequestLocked_quiet {q : GrvRotxRequest c}
    (h : grvProcessRotxRequestLocked st q = some r) :
    (grvHandlers c).Quiet s st (some (.mutex, grvLockGsv)) r := by
  cases h
  exact .updateGstVector (by rintro _ ⟨⟩; exact ⟨rfl, fun _ => rfl⟩)

theorem grvProcessSliceRequestUnlocked_quiet {q : GrvSliceRequest c}
    (h : grvProcessSliceRequestUnlocked s st q = some r) : (grvHandlers c).Quiet s st none r := by
  unfold grvProcessSliceRequestUnlocked at h
  split at h <;> cases h
  exact .done rfl (grvToServer_idle ⟨rfl, fun _ => rfl⟩)

theorem grvProcessSliceRequest_quiet {q : GrvSliceRequest c}
    (h : grvProcessSliceRequest s st q = some r) : (grvHandlers c).Quiet s st none r := by
  unfold grvProcessSliceRequest at h
  split at h
  · cases h
    exact .done rfl (grvSelf_idle ⟨rfl, fun _ => rfl⟩)
  split at h
  · cases h
    exact .lock rfl rfl (fun _ => rfl) (List.forall_mem_nil _)
  · obtain ⟨r', hr', rfl⟩ := Option.map_eq_some_iff.mp h
    have hq := grvProcessSliceRequestUnlocked_quiet hr'
    exact ⟨hq.suits, hq.outs, hq.cont, hq.view⟩

theorem grvProcessSliceRequestLocked_quiet {q : GrvSliceRequest c}
    (h : grvProcessSliceRequestLocked st q = some r) :
    (grvHandlers c).Quiet s st (some (.mutex, grvLockGsv)) r := by
  cases h
  exact .updateGstVector (by rintro _ ⟨⟩; exact ⟨rfl, fun _ => rfl⟩)

theorem grvProcessSliceResponse_quiet {q : GrvSliceResponse c}
    (h : grvProcessSliceResponse st q = some r) : (grvHandlers c).Quiet s st none r := by
  simp only [grvProcessSliceResponse] at h
  split at h
  · cases h
  split at h <;> cases h
  · exact .done rfl (List.forall_mem_singleton.mpr ⟨rfl, fun _ => rfl⟩)
  · exact .done rfl (List.forall_mem_nil _)

/-- The own entry of the version vector is not part of the view. -/
theorem grvProcessClockTickLocked_quiet (h : grvProcessClockTickLocked s st = some r) :
    (grvHandlers c).Quiet s st (some (.mutex, grvLockVv)) r := by
  cases h
  refine .unlock ?_ (by rintro _ ⟨⟩; exact ⟨rfl, fun _ => rfl⟩) (List.forall_mem_nil _)
  show grvView s _ = grvView s st
  unfold grvView
  congr 1
  exact view_own _ _

end Quiet

/-! ## 3. The nine handlers that are not quiet -/

section Moves

variable {s : ServerId c} {st : GrvServerState c} {e : GrvEvent c} {r : GrvOutcome c}

/-- What is being made at a server, after one PUT state was set. -/
theorem grvMaking_set {id : ℕ} {putState : GrvPutState c}
    (h : ptrArrayGet st.putStates id = some putState)
    (x : Option (GrvPutState c)) (st' : GrvServerState c)
    (h' : st'.putStates = ptrArraySet st.putStates id x) :
    grvMaking s st' = Function.update (grvMaking s st) id (x.bind fun putState =>
      putState.stamp.bind fun stamp =>
        if stamp.discarded then none else some (grvPutUpdate s putState stamp)) := by
  funext i
  rw [grvMaking, h', ptrArraySet_get h, Function.update_apply]
  split <;> rfl

theorem grvProcessPutRequestLocked_some {id : ℕ}
    (h : grvProcessPutRequestLocked s st id = some r) :
    ∃ putState, ptrArrayGet st.putStates id = some putState ∧ ownsKey s putState.key ∧
      r = grvPutOutcome s st id putState
        (grvPutValue st putState.key (grvPutItem s st putState)) := by
  unfold grvProcessPutRequestLocked at h
  split at h
  · cases h
  · rename_i putState hget
    split at h <;> cases h
    exact ⟨putState, hget, by assumption, rfl⟩

/-- A PUT leaves all other keys alone. -/
theorem grvPutOutcome_store (id : ℕ) {putState : GrvPutState c} {k : Key}
    (hk : k ≠ putState.key) :
    (grvPutOutcome s st id putState
      (grvPutValue st putState.key (grvPutItem s st putState))).state.store k = st.store k := by
  cases hput : grvPutValue st putState.key (grvPutItem s st putState) with
  | none => rfl
  | some store =>
    show store k = st.store k
    rw [(putValue_some hput).1, Function.update_of_ne hk]

theorem grvProcessPutRequestLocked_moves {id : ℕ}
    (h : grvProcessPutRequestLocked s st id = some r) :
    (grvHandlers c).Moves s st.clock st (.putRequestLocked id) r := by
  obtain ⟨putState, hget, -, rfl⟩ := grvProcessPutRequestLocked_some h
  have hmk := fun store => grvMaking_set (s := s) hget _
    (grvPutOutcome s st id putState store).state rfl
  cases hput : grvPutValue st putState.key (grvPutItem s st putState) with
  | none =>
    have hv : grvView s (grvPutOutcome s st id putState none).state =
        { grvView s st with making := Function.update (grvView s st).making id none } := by
      unfold grvView
      rw [hmk none]
      congr 1
      exact view_own _ _
    exact .intro (a := []) (b := []) ⟨rfl, rfl, by rintro _ ⟨⟩; rfl⟩ (List.forall_mem_nil _)
      outJobs_nil rfl hv (.discard id) rfl
  | some store =>
    obtain ⟨hstore, hold⟩ := putValue_some hput
    have hv : grvView s (grvPutOutcome s st id putState (some store)).state =
        { grvView s st with
          store := Function.update (grvView s st).store putState.key
            (grvPutItem s st putState :: (grvView s st).store putState.key)
          making := Function.update (grvView s st).making id
            (some (grvPutUpdate s putState (grvPutStamp st putState.key false))) } := by
      unfold grvView
      rw [hmk (some store)]
      simp only [ReplicaState.mk.injEq]
      exact ⟨hstore, view_own _ _, rfl, rfl⟩
    exact .intro (a := []) (b := []) ⟨rfl, rfl, by rintro _ ⟨⟩; rfl⟩ (List.forall_mem_nil _)
      outJobs_nil rfl hv
      (.put id (grvPutUpdate s putState (grvPutStamp st putState.key false)) rfl rfl hold) rfl

theorem grvProcessPutRequestUnlocked_some {id : ℕ}
    (h : grvProcessPutRequestUnlocked s st id = some r) :
    ∃ putState stamp, ptrArrayGet st.putStates id = some putState ∧ putState.stamp = some stamp ∧
      r = { state := { st with putStates := ptrArraySet st.putStates id none }
            outs := grvSend putState.destination (.putResponse (grvPutAnswer s putState stamp)) ::
              if stamp.discarded then []
              else grvReplicateValue s (grvPutUpdate s putState stamp) } := by
  unfold grvProcessPutRequestUnlocked at h
  split at h
  · cases h
  · rename_i putState hget
    split at h <;> cases h
    exact ⟨putState, _, hget, by assumption, rfl⟩

theorem grvProcessPutRequestUnlocked_moves {id : ℕ}
    (h : grvProcessPutRequestUnlocked s st id = some r) :
    (grvHandlers c).Moves s st.clock st (.putRequestUnlocked id) r := by
  obtain ⟨putState, stamp, hget, hstamp, rfl⟩ := grvProcessPutRequestUnlocked_some h
  have hbefore : (grvView s st).making id =
      if stamp.discarded then none else some (grvPutUpdate s putState stamp) := by
    show grvMaking s st id = _
    simp [grvMaking, hget, hstamp]
  have hv : grvView s { st with putStates := ptrArraySet st.putStates id none } =
      { grvView s st with making := Function.update (grvView s st).making id none } := by
    unfold grvView
    congr 1
    exact grvMaking_set hget none _ rfl
  have hans : ∀ o ∈ [grvSend putState.destination (.putResponse (grvPutAnswer s putState stamp))],
      (grvHandlers c).Idle o.event := grvSend_idle ⟨rfl, fun _ => rfl⟩
  by_cases hd : stamp.discarded
  · rw [if_pos hd] at hbefore ⊢
    have hsame : Function.update (grvView s st).making id none = (grvView s st).making := by
      rw [← hbefore, Function.update_eq_self]
    rw [hsame] at hv
    exact .intro (b := []) trivial (fun o ho => (hans o ho).1)
      (outJobs_idle fun o ho => (hans o ho).2) rfl hv (.discarded hbefore) rfl
  · rw [if_neg hd] at hbefore ⊢
    refine .intro (a := (others s).map fun j => .update j (grvPutUpdate s putState stamp).stored)
      (b := []) (J := updates (others s) (grvPutUpdate s putState stamp).stored) trivial ?_
      (fun p => ?_) rfl hv (.made hbefore (fun j => mem_others) (others_nodup s))
      (by rw [List.append_nil]; rfl)
    · intro o ho
      rcases List.mem_cons.mp ho with rfl | ho
      · exact (hans _ (List.mem_singleton_self _)).1
      · obtain ⟨s', -, rfl⟩ := List.mem_map.mp ho
        rfl
    · rw [show ∀ (a : GrvOut c) l, a :: l = [a] ++ l from fun _ _ => rfl, outJobs_append,
        outJobs_idle (fun o ho => (hans o ho).2), ite_self, List.nil_append]
      exact outJobs_broadcast (fun _ => rfl) p

/-- The work on a queue goes on with the next update. -/
theorem grvReplicaUpdateOutcome_moves {source : Replica c}
    {q : List (GrvReplicaUpdate c) × Option (GrvReplicaUpdate c)} {noTime : Bool}
    (hk : (grvKind e).held = none)
    (hm : Move (grvUpdateRules s) s.1 st.clock (grvRole e) (grvView s st)
      { grvView s st with queues := Function.update (grvView s st).queues source q.1 }
      (next s.1 (q.2.map ReplicaUpdate.stored))) :
    (grvHandlers c).Moves s st.clock st e
      { grvReplicaUpdateOutcome st source q with noTime := noTime } := by
  obtain ⟨q, n⟩ := q
  cases n with
  | none =>
    refine .intro (a := []) (b := []) ?_ (List.forall_mem_nil _) outJobs_nil rfl rfl hm rfl
    rw [hk]
    exact trivial
  | some u =>
    refine .intro (a := []) (b := [.install s.1 u.stored]) ?_ (List.forall_mem_nil _) outJobs_nil
      rfl rfl hm rfl
    rw [hk]
    exact rfl

theorem grvProcessReplicaUpdate_moves {u : GrvReplicaUpdate c}
    (h : grvProcessReplicaUpdate s st u = some r) :
    (grvHandlers c).Moves s st.clock st (.replicaUpdate u) r := by
  obtain ⟨q, hq, rfl⟩ := Option.map_eq_some_iff.mp h
  exact grvReplicaUpdateOutcome_moves rfl (.update hq)

theorem grvProcessReplicaUpdateVvUnlocked_moves {u : GrvReplicaUpdate c}
    (h : grvProcessReplicaUpdateVvUnlocked s st u = some r) :
    (grvHandlers c).Moves s st.clock st (.replicaUpdateVvUnlocked u) r := by
  obtain ⟨q, hq, rfl⟩ := Option.map_eq_some_iff.mp h
  exact grvReplicaUpdateOutcome_moves rfl (.leave hq)

theorem grvProcessReplicaUpdateVvLocked_moves {u : GrvReplicaUpdate c}
    (h : grvProcessReplicaUpdateVvLocked s st u = some r) :
    (grvHandlers c).Moves s st.clock st (.replicaUpdateVvLocked u) r := by
  unfold grvProcessReplicaUpdateVvLocked at h
  split at h <;> cases h
  refine .intro (a := []) (b := [.leave s.1 u.stored]) ⟨rfl, rfl, by rintro _ ⟨⟩; rfl⟩
    (List.forall_mem_nil _) outJobs_nil rfl ?_ .install rfl
  show grvView s _ = _
  unfold grvView
  congr 1
  exact view_entry _ _ _

theorem grvProcessHeartbeat_moves {q : GrvHeartbeat c} (h : grvProcessHeartbeat st q = some r) :
    (grvHandlers c).Moves s st.clock st (.heartbeat q) r := by
  cases h
  exact .intro (a := []) (b := [.raise s.1 q.replica q.time]) rfl (List.forall_mem_nil _)
    outJobs_nil rfl rfl (.beat true) rfl

theorem grvProcessHeartbeatLocked_moves {q : GrvHeartbeat c}
    (h : grvProcessHeartbeatLocked st q = some r) :
    (grvHandlers c).Moves s st.clock st (.heartbeatLocked q) r := by
  cases h
  refine .intro (a := []) (b := []) ⟨rfl, rfl, by rintro _ ⟨⟩⟩ (List.forall_mem_nil _) outJobs_nil
    rfl ?_ .raise rfl
  show grvView s _ = _
  unfold grvView
  congr 1
  exact view_raise _ _ _

/-- What a clock tick sends. -/
theorem grvSendHeartbeat_jobs (sendTime : Bool) (p : Partition c) :
    outJobs (grvHandlers c).role s p
        (grvSendHeartbeat s st sendTime ++ [.self c.clockInterval .clockTick]) =
      if p = s.2 then (others s).map fun j => .beat j s.1 (if sendTime then st.clock else 0)
      else [] := by
  have htick : ∀ o ∈ [(.self c.clockInterval .clockTick : GrvOut c)], ∀ q,
      (grvRole o.event).job q = none := List.forall_mem_singleton.mpr fun _ => rfl
  rw [outJobs_append, outJobs_idle htick, ite_self, List.append_nil]
  exact outJobs_broadcast (fun _ => rfl) p

theorem grvSendHeartbeat_plain {sendTime : Bool} :
    ∀ o ∈ grvSendHeartbeat s st sendTime ++ [.self c.clockInterval .clockTick],
      grvKind o.event = .plain := by
  intro o ho
  rcases List.mem_append.mp ho with ho | ho
  · obtain ⟨s', -, rfl⟩ := List.mem_map.mp ho
    rfl
  · rw [List.mem_singleton.mp ho]
    rfl

theorem grvProcessClockTickUnlocked_moves {sendTime : Bool}
    (h : grvProcessClockTickUnlocked s st sendTime = some r) :
    (grvHandlers c).Moves s st.clock st (.clockTickUnlocked sendTime) r := by
  cases h
  cases sendTime
  · exact .intro (b := []) (J := beats (others s) s.1 0) trivial grvSendHeartbeat_plain
      (grvSendHeartbeat_jobs false) rfl rfl (.tick fun j hj => mem_others.mp hj)
      (by rw [List.append_nil]; rfl)
  · exact .intro (b := []) (J := beats (others s) s.1 st.clock) trivial grvSendHeartbeat_plain
      (grvSendHeartbeat_jobs true) rfl rfl (.promise fun j hj => mem_others.mp hj)
      (by rw [List.append_nil]; rfl)

theorem grvProcessClockTick_moves (h : grvProcessClockTick s st = some r) :
    (grvHandlers c).Moves s st.clock st .clockTick r := by
  unfold grvProcessClockTick at h
  split at h
  · cases h
    exact .intro (a := []) (b := []) rfl (List.forall_mem_nil _) outJobs_nil rfl rfl
      (.tick (List.forall_mem_nil _)) rfl
  · cases h
    exact .intro (b := []) (J := beats (others s) s.1 0) trivial grvSendHeartbeat_plain
      (grvSendHeartbeat_jobs false) rfl rfl (.tick fun j hj => mem_others.mp hj)
      (by rw [List.append_nil]; rfl)

end Moves

/-! ## 4. The protocol replicates versions -/

theorem grvProcessEvent_moves {s : ServerId c} {st : GrvServerState c} {e : GrvEvent c}
    {r : GrvOutcome c} (h : grvProcessEvent s st e = some r) :
    (grvHandlers c).Moves s st.clock st e r := by
  cases e with
  | getRequest => exact (grvProcessGetRequest_quiet h).moves rfl
  | forwardedGetRequestLocked => exact (grvProcessForwardedGetRequestLocked_quiet h).moves rfl
  | getRequestLocked => exact (grvProcessGetRequestLocked_quiet h).moves rfl
  | getRequestUnlocked => exact (grvProcessGetRequestUnlocked_quiet h).moves rfl
  | getResponse => exact (grvProcessGetResponse_quiet h).moves rfl
  | putRequest => exact (grvProcessPutRequest_quiet h).moves rfl
  | putRequestLocked => exact grvProcessPutRequestLocked_moves h
  | putRequestUnlocked => exact grvProcessPutRequestUnlocked_moves h
  | putResponse => exact (grvProcessPutResponse_quiet h).moves rfl
  | replicaUpdate => exact grvProcessReplicaUpdate_moves h
  | replicaUpdateVvLocked => exact grvProcessReplicaUpdateVvLocked_moves h
  | replicaUpdateVvUnlocked => exact grvProcessReplicaUpdateVvUnlocked_moves h
  | lstFromLeaf => exact (grvProcessLstFromLeaf_quiet h).moves rfl
  | lstFromLeafRootLocked => exact (grvProcessLstFromLeafRootLocked_quiet h).moves rfl
  | lstFromLeafRootUnlocked => exact (grvProcessLstFromLeafRootUnlocked_quiet h).moves rfl
  | startGstComputation => exact (grvProcessStartGstComputation_quiet h).moves rfl
  | gstFromRoot => exact (grvProcessGstFromRoot_quiet h).moves rfl
  | gstFromRootLocked => exact (grvProcessGstFromRootLocked_quiet h).moves rfl
  | gstFromRootUnlocked => exact (grvProcessGstFromRootUnlocked_quiet h).moves rfl
  | sliceRequest => exact (grvProcessSliceRequest_quiet h).moves rfl
  | sliceRequestLocked => exact (grvProcessSliceRequestLocked_quiet h).moves rfl
  | sliceRequestUnlocked => exact (grvProcessSliceRequestUnlocked_quiet h).moves rfl
  | sliceResponse => exact (grvProcessSliceResponse_quiet h).moves rfl
  | rotxRequest => exact (grvProcessRotxRequest_quiet h).moves rfl
  | rotxRequestLocked => exact (grvProcessRotxRequestLocked_quiet h).moves rfl
  | rotxRequestUnlocked => exact (grvProcessRotxRequestUnlocked_quiet h).moves rfl
  | clockTick => exact grvProcessClockTick_moves h
  | clockTickLocked => exact (grvProcessClockTickLocked_quiet h).moves rfl
  | clockTickUnlocked => exact grvProcessClockTickUnlocked_moves h
  | heartbeat => exact grvProcessHeartbeat_moves h
  | heartbeatLocked => exact grvProcessHeartbeatLocked_moves h
  | rotxResponse => cases h
  | clientTick => cases h

theorem grvServerProcessEvent_some {s : ServerId c} {t : ℚ} {st : GrvServerState c} {e : GrvEvent c}
    {r : GrvOutcome c} (h : grvServerProcessEvent s t st e = some r) :
    grvProcessEvent s { st with now := t, clock := c.clock s t } e = some r := by
  unfold grvServerProcessEvent at h
  split at h
  · exact h
  · cases h

theorem grvServerProcessEvent_moves {s : ServerId c} {t : ℚ} {st : GrvServerState c}
    {e : GrvEvent c} {r : GrvOutcome c} (h : grvServerProcessEvent s t st e = some r) :
    (grvHandlers c).Moves s (c.clock s t) { st with now := t, clock := c.clock s t } e r :=
  grvProcessEvent_moves (grvServerProcessEvent_some h)

/-- What a client hands over. -/
theorem grvClientDecide_outs {k : ClientId c} {t : ℚ} {st : GrvClientState c} {d : Decision}
    {r : GrvClientState c × List (GrvOut c)} (h : grvClientDecide k t st d = some r) :
    ∀ o ∈ r.2, grvKind o.event = .plain ∧ grvRole o.event = .other := by
  unfold grvClientDecide grvClientSend at h
  split at h
  · cases h
    exact List.forall_mem_nil _
  · split at h <;> cases h
    exact List.forall_mem_singleton.mpr ⟨rfl, rfl⟩
  all_goals
    obtain ⟨st', -, rfl⟩ := Option.map_eq_some_iff.mp h
    exact List.forall_mem_singleton.mpr ⟨rfl, rfl⟩

theorem grvClientProcessEvent_outs {k : ClientId c} {t : ℚ} {st : GrvClientState c} {d : Decision}
    {e : GrvEvent c} {r : GrvClientState c × List (GrvOut c)}
    (h : grvClientProcessEvent k t d st e = some r) :
    ∀ o ∈ r.2, grvKind o.event = .plain ∧ grvRole o.event = .other := by
  unfold grvClientProcessEvent at h
  split at h
  · cases h
  · exact grvClientDecide_outs h

/-- The roles of which only one kind of event has each. -/
theorem grvRole_eq_iff {e : GrvEvent c} :
    (∀ id, grvRole e = .put id ↔ e = .putRequestLocked id) ∧
      (∀ id, grvRole e = .made id ↔ e = .putRequestUnlocked id) ∧
      (∀ u, grvRole e = .update u ↔ e = .replicaUpdate u) ∧
      (∀ u, grvRole e = .install u ↔ e = .replicaUpdateVvLocked u) ∧
      (∀ u, grvRole e = .leave u ↔ e = .replicaUpdateVvUnlocked u) ∧
      (grvRole e = .promise ↔ e = .clockTickUnlocked true) := by
  unfold grvRole
  split <;> simp_all

theorem grvRole_put {e : GrvEvent c} {id : ℕ} : grvRole e = .put id ↔ e = .putRequestLocked id :=
  grvRole_eq_iff.1 id

theorem grvRole_made {e : GrvEvent c} {id : ℕ} :
    grvRole e = .made id ↔ e = .putRequestUnlocked id :=
  grvRole_eq_iff.2.1 id

theorem grvRole_update {e : GrvEvent c} {u : GrvReplicaUpdate c} :
    grvRole e = .update u ↔ e = .replicaUpdate u :=
  grvRole_eq_iff.2.2.1 u

theorem grvRole_install {e : GrvEvent c} {u : GrvReplicaUpdate c} :
    grvRole e = .install u ↔ e = .replicaUpdateVvLocked u :=
  grvRole_eq_iff.2.2.2.1 u

theorem grvRole_leave {e : GrvEvent c} {u : GrvReplicaUpdate c} :
    grvRole e = .leave u ↔ e = .replicaUpdateVvUnlocked u :=
  grvRole_eq_iff.2.2.2.2.1 u

theorem grvRole_promise {e : GrvEvent c} : grvRole e = .promise ↔ e = .clockTickUnlocked true :=
  grvRole_eq_iff.2.2.2.2.2

/-- **The GentleRain Vector protocol replicates versions.** -/
def grvReplicating (c : Cluster) : Replicating (grvProgram c) (TimeVector c) where
  view := grvView
  role := grvRole
  kind := grvKind
  lock := grvLockVv
  putKey st id := (ptrArrayGet st.putStates id).map GrvPutState.key
  rules := grvUpdateRules
  rules_self _ := rfl
  rules_owns _ := rfl
  disciplined := .of_suits (fun h => (grvServerProcessEvent_moves h).suits)
    (fun h ho => (grvServerProcessEvent_moves h).outs _ ho)
    (fun h ho => (grvClientProcessEvent_outs h _ ho).1)
  kind_update h := by rw [grvRole_update.mp h]; rfl
  kind_put h := by rw [grvRole_put.mp h]; rfl
  kind_made h := by rw [grvRole_made.mp h]; rfl
  kind_promise h := by rw [grvRole_promise.mp h]; rfl
  put {s t st e r id} h he := by
    obtain rfl := grvRole_put.mp he
    obtain ⟨putState, -, -, rfl⟩ := grvProcessPutRequestLocked_some (grvServerProcessEvent_some h)
    exact ⟨rfl, _, rfl, rfl⟩
  put_key {s t st e r id} h he := by
    obtain rfl := grvRole_put.mp he
    obtain ⟨putState, hget, hown, rfl⟩ :=
      grvProcessPutRequestLocked_some (grvServerProcessEvent_some h)
    refine ⟨putState.key, Option.mem_map_of_mem _ hget, hown, fun k hk => ?_⟩
    exact grvPutOutcome_store id hk
  move h := (grvServerProcessEvent_moves h).move
  client h o ho := (grvClientProcessEvent_outs h o ho).2

/-- At the start there are no versions. -/
theorem grvWorld_fresh (setup : Setup c (GrvEvent c)) :
    (grvReplicating c).Fresh (grvWorld setup).config where
  exclusive := Setup.exclusive rfl rfl rfl
  now_pos := setup.start_pos
  view s := by
    show grvView s (grvInitState c) = _
    unfold grvView grvInitState
    congr 1
    funext j
    exact ite_self _
  jobs p := by
    refine Multiset.eq_zero_of_forall_notMem fun j hj => ?_
    obtain ⟨x, hx, hj⟩ := (Multiset.mem_filterMap _ _).mp hj
    rcases Setup.mem_pool hx with ⟨s, rfl, -⟩ | ⟨s, rfl⟩ | ⟨k, rfl⟩
    · change (if s.2 = p then none else none) = some j at hj
      rw [ite_self] at hj
      cases hj
    · change (if s.2 = p then none else none) = some j at hj
      rw [ite_self] at hj
      cases hj
    · cases hj
  unlocked s e u hm := by
    rcases Setup.mem_pool hm with ⟨_, h, -⟩ | ⟨_, h⟩ | ⟨_, h⟩ <;> cases h

end CCSim
