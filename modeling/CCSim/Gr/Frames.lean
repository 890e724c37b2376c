/-
# Version vectors and stable times in `gr`, handler by handler

Four handlers write the version vector, each in one entry (`grVectorAfter`); the global stable
time only grows.  The own entry of the version vector never runs ahead of the clock, so writing
the clock into it does not lower it.
-/
import CCSim.Gr.Versions
import CCSim.Gr.Work

namespace CCSim

variable {c : Cluster} {s : ServerId c} {st : GrServerState c} {e : GrEvent c} {r : GrOutcome c}

@[simp]
theorem grUpdateGst_versionVector (st : GrServerState c) (gst : ℚ) :
    (grUpdateGst st gst).1.versionVector = st.versionVector := by
  unfold grUpdateGst grRotxOnGstUpdated
  split <;> rfl

/-- What the handler of an event does to the version vector. -/
def grVectorAfter (s : ServerId c) (st : GrServerState c) : GrEvent c → Replica c → ℚ
  | .putRequestLocked _ => Function.update st.versionVector s.1 st.clock
  | .clockTickLocked =>
    if st.versionVector s.1 + c.clockInterval ≤ st.clock then
      Function.update st.versionVector s.1 st.clock
    else st.versionVector
  | .replicaUpdateLocked update =>
    Function.update st.versionVector update.sourceReplica update.updateTime
  | .heartbeatLocked heartbeat =>
    if st.versionVector heartbeat.replica < heartbeat.time then
      Function.update st.versionVector heartbeat.replica heartbeat.time
    else st.versionVector
  | _ => st.versionVector

/-- The time with which the handler of an event calls `gr_update_gst`, if it does. -/
def grNextGst (s : ServerId c) (st : GrServerState c) : GrEvent c → Option ℚ
  | .forwardGetRequestLocked request => some request.gst
  | .getRequestLocked id => (ptrArrayGet st.getStates id).map GrGetState.gst
  | .getSnapshotRequestLocked id => (ptrArrayGet st.snapshotStates id).map GrSnapshotState.gst
  | .sliceRequestLocked request => some request.snapshotTime
  | .sliceResponseLocked slice => some slice.gst
  | .lstFromLeafRootLocked => some st.minLst
  | .gstFromRootLocked rootGst => some rootGst.gst
  | .startGstComputation => if s.2.val = 0 then some (st.versionVector c.replica0) else none
  | _ => none

theorem grNextGst_now (t u : ℚ) :
    grNextGst s { st with now := t, clock := u } e = grNextGst s st e := by
  cases e <;> rfl

/-- One look at every handler. -/
theorem grProcessEvent_frame (h : grProcessEvent s st e = some r) :
    r.state.versionVector = grVectorAfter s st e ∧
      r.state.gst = (grNextGst s st e).elim st.gst (max st.gst) := by
  cases e <;> simp only [grProcessEvent, grProcessGetRequest, grProcessForwardGetRequestLocked,
    grProcessGetRequestLocked, grProcessGetRequestUnlocked, grProcessGetResponse,
    grProcessPutRequest, grProcessPutRequestLocked, grPutOutcome, grProcessPutRequestUnlocked,
    grProcessPutResponse, grProcessReplicaUpdate, grProcessReplicaUpdateLocked,
    grProcessReplicaUpdateUnlocked, grReplicaUpdateOutcome, grProcessLstFromLeaf,
    grSendLstToParent, grProcessLstFromLeafRootLocked, grProcessLstFromLeafRootUnlocked,
    grProcessStartGstComputation, grProcessGstFromRoot, grProcessGstFromRootLocked,
    grProcessGstFromRootUnlocked, grProcessGetSnapshotRequest, grProcessGetSnapshotRequestLocked,
    grProcessGetSnapshotRequestUnlocked, grProcessSliceRequest, grProcessSliceRequestLocked,
    grProcessSliceRequestUnlocked, grProcessSliceResponse, grProcessSliceResponseLocked,
    grProcessSliceResponseUnlocked, grSendSnapshotResponse, grProcessRotxSnapshotResponse,
    grProcessRotxRequest, grProcessClockTick, grProcessClockTickLocked,
    grProcessClockTickUnlocked, grProcessHeartbeat, grProcessHeartbeatLocked,
    Option.map_eq_some_iff] at h <;>
  grind [grVectorAfter, grNextGst, grUpdateGst_versionVector, grUpdateGst_gst]

theorem grProcessEvent_vector (h : grProcessEvent s st e = some r) :
    r.state.versionVector = grVectorAfter s st e :=
  (grProcessEvent_frame h).1

/-- The stable time is the later of the old one and the one an update brings. -/
theorem grProcessEvent_nextGst (h : grProcessEvent s st e = some r) :
    r.state.gst = (grNextGst s st e).elim st.gst (max st.gst) :=
  (grProcessEvent_frame h).2

theorem grProcessEvent_gst (h : grProcessEvent s st e = some r) : st.gst ≤ r.state.gst := by
  rw [grProcessEvent_nextGst h]
  cases grNextGst s st e with
  | none => exact le_rfl
  | some gst => exact le_max_left _ _

theorem grServerProcessEvent_gst {t : ℚ} (h : grServerProcessEvent s t st e = some r) :
    st.gst ≤ r.state.gst := by
  have := grProcessEvent_gst (grServerProcessEvent_some h)
  exact this

/-- The own entry of the version vector is kept, or set to the clock, by events that are not about
an own update or heartbeat. -/
theorem grVectorAfter_own (hu : ∀ u, e = .replicaUpdateLocked u → u.sourceReplica ≠ s.1)
    (hb : ∀ q, e = .heartbeatLocked q → q.replica ≠ s.1) :
    grVectorAfter s st e s.1 = st.versionVector s.1 ∨ grVectorAfter s st e s.1 = st.clock := by
  unfold grVectorAfter
  split
  · exact .inr (Function.update_self _ _ _)
  · split
    · exact .inr (Function.update_self _ _ _)
    · exact .inl rfl
  · exact .inl (Function.update_of_ne (hu _ rfl).symm _ _)
  · split
    · exact .inl (Function.update_of_ne (hb _ rfl).symm _ _)
    · exact .inl rfl
  · exact .inl rfl

end CCSim
