/-
# Version vectors and stable vectors in `grv`, handler by handler

Four handlers write the version vector, each in one entry (`grvVectorAfter`); the global stable
vector only grows.  The own entry of the version vector never runs ahead of the clock, so writing
the clock into it does not lower it.
-/
import CCSim.Grv.Versions

namespace CCSim

variable {c : Cluster} {s : ServerId c} {st : GrvServerState c} {e : GrvEvent c} {r : GrvOutcome c}

theorem grvUpdateGstVector_gstVector (st : GrvServerState c) (gstVector : TimeVector c)
    (i : Replica c) :
    (grvUpdateGstVector st gstVector).gstVector i = max (st.gstVector i) (gstVector i) := by
  show (if st.gstVector i < gstVector i then gstVector i else st.gstVector i) = _
  split
  · rename_i h
    exact (max_eq_right h.le).symm
  · rename_i h
    exact (max_eq_left (not_lt.mp h)).symm

@[simp]
theorem grvUpdateGstVector_versionVector (st : GrvServerState c) (gstVector : TimeVector c) :
    (grvUpdateGstVector st gstVector).versionVector = st.versionVector := rfl

/-- What the handler of an event does to the version vector. -/
def grvVectorAfter (s : ServerId c) (st : GrvServerState c) : GrvEvent c → Replica c → ℚ
  | .putRequestLocked _ => Function.update st.versionVector s.1 st.clock
  | .clockTickLocked => Function.update st.versionVector s.1 st.clock
  | .replicaUpdateVvLocked update =>
    Function.update st.versionVector update.sourceReplica update.updateTime
  | .heartbeatLocked heartbeat =>
    if st.versionVector heartbeat.replica < heartbeat.time then
      Function.update st.versionVector heartbeat.replica heartbeat.time
    else st.versionVector
  | _ => st.versionVector

/-- The vector with which the handler of an event calls `grv_update_gst_vector`, if it does. -/
def grvNextGst (s : ServerId c) (st : GrvServerState c) : GrvEvent c → Option (TimeVector c)
  | .getRequest request => if lpidForKey s request.key ≠ s then some request.gstVector else none
  | .forwardedGetRequestLocked request => some request.gstVector
  | .getRequestLocked request => some request.gstVector
  | .rotxRequestLocked request => some request.gstVector
  | .sliceRequestLocked request => some request.gstVector
  | .lstFromLeafRootLocked => some st.minLstVector
  | .gstFromRootLocked rootGst => some rootGst.gstVector
  | .startGstComputation => if s.2.val = 0 then some st.versionVector else none
  | _ => none

theorem grvNextGst_now (t u : ℚ) :
    grvNextGst s { st with now := t, clock := u } e = grvNextGst s st e := by
  cases e <;> rfl

/-- One look at every handler. -/
theorem grvProcessEvent_frame (h : grvProcessEvent s st e = some r) :
    r.state.versionVector = grvVectorAfter s st e ∧
      r.state.gstVector = (grvNextGst s st e).elim st.gstVector fun v =>
        (grvUpdateGstVector st v).gstVector := by
  cases e <;> simp only [grvProcessEvent, grvProcessGetRequest,
    grvProcessForwardedGetRequestLocked, grvProcessGetRequestLocked, grvProcessGetRequestUnlocked,
    grvProcessGetResponse, grvProcessPutRequest, grvProcessPutRequestLocked, grvPutOutcome,
    grvProcessPutRequestUnlocked, grvProcessPutResponse, grvProcessReplicaUpdate,
    grvProcessReplicaUpdateVvLocked, grvProcessReplicaUpdateVvUnlocked, grvReplicaUpdateOutcome,
    grvProcessLstFromLeaf, grvSendLstToParent, grvProcessLstFromLeafRootLocked,
    grvProcessLstFromLeafRootUnlocked, grvProcessStartGstComputation, grvProcessGstFromRoot,
    grvProcessGstFromRootLocked, grvProcessGstFromRootUnlocked, grvProcessSliceRequest,
    grvProcessSliceRequestLocked, grvProcessSliceRequestUnlocked, grvProcessSliceResponse,
    grvSendRotxResponse, grvProcessRotxRequest, grvProcessRotxRequestLocked,
    grvProcessRotxRequestUnlocked, grvProcessClockTick, grvProcessClockTickLocked,
    grvProcessClockTickUnlocked, grvProcessHeartbeat, grvProcessHeartbeatLocked,
    Option.map_eq_some_iff] at h <;>
  grind [grvVectorAfter, grvNextGst, grvUpdateGstVector_versionVector]

theorem grvProcessEvent_vector (h : grvProcessEvent s st e = some r) :
    r.state.versionVector = grvVectorAfter s st e :=
  (grvProcessEvent_frame h).1

/-- The stable vector is the old one, raised by the one an update brings. -/
theorem grvProcessEvent_nextGst (h : grvProcessEvent s st e = some r) :
    r.state.gstVector = (grvNextGst s st e).elim st.gstVector fun v =>
      (grvUpdateGstVector st v).gstVector :=
  (grvProcessEvent_frame h).2

theorem grvProcessEvent_gst (h : grvProcessEvent s st e = some r) :
    ∀ i, st.gstVector i ≤ r.state.gstVector i := by
  intro i
  rw [grvProcessEvent_nextGst h]
  cases grvNextGst s st e with
  | none => exact le_rfl
  | some v =>
    rw [Option.elim_some, grvUpdateGstVector_gstVector]
    exact le_max_left _ _

theorem grvServerProcessEvent_gst {t : ℚ} (h : grvServerProcessEvent s t st e = some r) :
    ∀ i, st.gstVector i ≤ r.state.gstVector i := by
  have := grvProcessEvent_gst (grvServerProcessEvent_some h)
  exact this

/-- The own entry of the version vector is kept, or set to the clock, by events that are not about
an own update or heartbeat. -/
theorem grvVectorAfter_own (hu : ∀ u, e = .replicaUpdateVvLocked u → u.sourceReplica ≠ s.1)
    (hb : ∀ q, e = .heartbeatLocked q → q.replica ≠ s.1) :
    grvVectorAfter s st e s.1 = st.versionVector s.1 ∨ grvVectorAfter s st e s.1 = st.clock := by
  unfold grvVectorAfter
  split
  · exact .inr (Function.update_self _ _ _)
  · exact .inr (Function.update_self _ _ _)
  · exact .inl (Function.update_of_ne (hu _ rfl).symm _ _)
  · split
    · exact .inl (Function.update_of_ne (hb _ rfl).symm _ _)
    · exact .inl rfl
  · exact .inl rfl

end CCSim
