/-
# Where the global stable times of `gr` come from

The counterpart of `Grv/StableVector.lean`.  A stable time waits in the slots of a server, too: with a
GET until it gets the lock, with a transaction until it may start, and as the time of a snapshot,
which is sent to the servers of its slices as if it were their stable time
(`grProcessEvent_carries`).

A data center with one partition has no aggregation tree, and `gr_process_start_gst_computation`
takes the first entry of the version vector instead of the least.  This is a promise only if no other
entry has come less far, which is the condition here (`GrFirstEntryHeld`); then every stable time is
a promise of all version vectors of its data center (`gr_promised`).
-/
import CCSim.StableTimes
import CCSim.Gr.Routes
import CCSim.Rounds

namespace CCSim

variable {c : Cluster} {s : ServerId c} {st : GrServerState c} {e : GrEvent c} {r : GrOutcome c}

/-! ## 1. What is carried -/

/-- The stable time that a message or an event carries: its `gst`, or the `snapshot_time` of a
slice. -/
def GrEvent.gst? : GrEvent c → Option ℚ
  | .getRequest request => some request.gst
  | .forwardGetRequestLocked request => some request.gst
  | .getResponse response => some response.gst
  | .gstFromRoot rootGst => some rootGst.gst
  | .gstFromRootLocked rootGst => some rootGst.gst
  | .gstFromRootUnlocked rootGst => some rootGst.gst
  | .getSnapshotRequest request => some request.gst
  | .getSnapshotResponse response => some response.gst
  | .sliceRequest request => some request.snapshotTime
  | .sliceRequestLocked request => some request.snapshotTime
  | .sliceRequestUnlocked request => some request.snapshotTime
  | .sliceResponse slice => some slice.gst
  | .sliceResponseLocked slice => some slice.gst
  | .sliceResponseUnlocked slice => some slice.gst
  | .rotxRequest request => some request.gst
  | .rotxResponse response => some response.gst
  | _ => none

/-- What is true in the data center of a process of the stable time that an event for it carries. -/
def GrCarries (good : Replica c → ℚ → Prop) (x : (ServerId c ⊕ ClientId c) × GrEvent c) : Prop :=
  ∀ gst ∈ x.2.gst?, good (centerOf x.1) gst

/-- What is true of the stable times that wait in the slots of a server. -/
structure GrTimesKept (good : ℚ → Prop) (st : GrServerState c) : Prop where
  get : ∀ id getState, ptrArrayGet st.getStates id = some getState → good getState.gst
  snapshot : ∀ id snapshot, ptrArrayGet st.snapshotStates id = some snapshot →
    good snapshot.gst ∧ good snapshot.time
  rotx : ∀ id rotx, ptrArrayGet st.rotxStates id = some rotx → good rotx.snapshotRequest.gst

variable {good : Replica c → ℚ → Prop}

theorem grCarries_none {x : (ServerId c ⊕ ClientId c) × GrEvent c} (h : x.2.gst? = none) :
    GrCarries good x := by
  intro gst hgst
  rw [h] at hgst
  cases hgst

theorem grCarries_some {x : (ServerId c ⊕ ClientId c) × GrEvent c} {gst : ℚ}
    (h : x.2.gst? = some gst) (hgst : good (centerOf x.1) gst) : GrCarries good x := by
  intro gst' hgst'
  rw [h] at hgst'
  cases hgst'
  exact hgst

theorem GrTimesKept.of_eq {good : ℚ → Prop} {st' : GrServerState c} (h : GrTimesKept good st)
    (hget : st'.getStates = st.getStates) (hsnapshot : st'.snapshotStates = st.snapshotStates)
    (hrotx : st'.rotxStates = st.rotxStates) : GrTimesKept good st' := by
  refine ⟨?_, ?_, ?_⟩
  · rw [hget]
    exact h.get
  · rw [hsnapshot]
    exact h.snapshot
  · rw [hrotx]
    exact h.rotx

theorem GrTimesKept.updateGst {good : ℚ → Prop} (h : GrTimesKept good st) (gst : ℚ) :
    GrTimesKept good (grUpdateGst st gst).1 := by
  refine ⟨?_, ?_, fun id rotx' hrotx => ?_⟩
  · rw [grUpdateGst_getStates]
    exact h.get
  · rw [grUpdateGst_snapshotStates]
    exact h.snapshot
  · obtain ⟨rotx, hget, rfl | ⟨rfl, -⟩⟩ := grUpdateGst_rotx hrotx
    · exact h.rotx id _ hget
    · exact h.rotx id rotx hget

theorem grUpdateGst_carries (h : GrTimesKept (good s.1) st) (gst : ℚ) :
    ∀ o ∈ (grUpdateGst st gst).2, GrCarries good (o.place s, o.event) := by
  intro o ho
  obtain ⟨id, rotx, hget, rfl⟩ := grUpdateGst_out ho
  exact grCarries_some rfl (h.rotx id rotx hget)

/-- An answer stays in the data center. -/
theorem RepliesTo.carries {k : ClientId c} {lpid : Lpid c} (h : RepliesTo s k lpid) {gst : ℚ}
    (he : e.gst? = some gst) (hgst : good s.1 gst) :
    GrCarries good ((grSend lpid e).place s, (grSend lpid e).event) := by
  rcases h with ⟨rfl, hs⟩ | ⟨rfl, hs⟩
  · rw [hs] at hgst
    exact grCarries_some he hgst
  · rw [hs] at hgst
    exact grCarries_some he hgst

theorem grSendGst_carries {rootGst : GrGstFromRoot} (h : good s.1 rootGst.gst) :
    ∀ o ∈ grSendGst s rootGst, GrCarries good (o.place s, o.event) := by
  intro o ho
  obtain ⟨p, -, rfl⟩ := List.mem_map.mp ho
  exact grCarries_some rfl h

/-- **Slots keep stable times that the server was told of, or its own.** -/
theorem GrWork.timesKept {good : ℚ → Prop} (hw : GrWork s st e r) (hformed : GrFormed s st)
    (hzero : good 0) (hst : GrTimesKept good st) (he : ∀ gst ∈ e.gst?, good gst)
    (hgst : good r.state.gst) : GrTimesKept good r.state := by
  cases hw with
  | other _ hget _ hsnapshot hrotx => exact hst.of_eq hget hsnapshot hrotx
  | wake _ gst others hstate =>
    rw [hstate]
    exact hst.updateGst gst
  | getOpen => exact ⟨forall_ptrArrayPut hst.get (he _ rfl), hst.snapshot, hst.rotx⟩
  | @getServe request =>
    have hput := forall_ptrArrayPut hst.get (x := request.state) (he _ rfl)
    have hslot : ptrArrayGet (ptrArrayPut request.state st.getStates)
        (ptrArrayFree st.getStates) = some request.state := by
      rw [ptrArrayPut_get, if_pos rfl]
    exact ⟨forall_ptrArraySet hput hslot (by rintro _ ⟨⟩), hst.snapshot, hst.rotx⟩
  | getUnlocked hget =>
    exact ⟨forall_ptrArraySet hst.get hget (by rintro _ ⟨⟩), hst.snapshot, hst.rotx⟩
  | getLocked | sliceLocked | receiveLocked => exact hst.updateGst _
  | getForward | getResponse | putForward | putDefer | putResponse | snapshotUnlocked
  | sliceRequest | sliceServe | sliceResponse => exact hst
  | putOpen | putLocked | putUnlocked => exact hst.of_eq rfl rfl rfl
  | rotxRequest => exact ⟨hst.get, hst.snapshot, forall_ptrArrayPut hst.rotx (he _ rfl)⟩
  | snapshotRequest =>
    exact ⟨hst.get, forall_ptrArrayPut hst.snapshot ⟨he _ rfl, hzero⟩, hst.rotx⟩
  | @snapshotLocked id snapshot hget =>
    have hst' := hst.updateGst snapshot.gst
    have hget' : ptrArrayGet (grUpdateGst st snapshot.gst).1.snapshotStates id = some snapshot := by
      rw [grUpdateGst_snapshotStates]
      exact hget
    refine ⟨hst'.get, forall_ptrArraySet hst'.snapshot hget' ?_, hst'.rotx⟩
    rintro _ ⟨⟩
    exact ⟨hzero, hgst⟩
  | @receive _ slice snapshot hevent hget =>
    have hslice : good slice.gst := by rcases hevent with rfl | rfl <;> exact he _ rfl
    refine ⟨hst.get, forall_ptrArraySet hst.snapshot hget ?_, hst.rotx⟩
    rintro _ ⟨⟩
    refine ⟨?_, (hst.snapshot _ _ hget).2⟩
    unfold grReceiveSlice
    dsimp only
    split
    · exact hslice
    · exact (hst.snapshot _ _ hget).1
  | receiveLast _ hget _ hrotx =>
    exact ⟨hst.get, forall_ptrArraySet hst.snapshot hget (by rintro _ ⟨⟩),
      forall_ptrArraySet hst.rotx hrotx (by rintro _ ⟨⟩)⟩
  | abroad _ hget hclient => exact absurd (hformed.snapshot _ _ hget) hclient

theorem grProcessGetRequestUnlocked_carries {id : ℕ}
    (h : grProcessGetRequestUnlocked s st id = some r)
    (hlinked : ∀ getState, ptrArrayGet st.getStates id = some getState →
      RepliesTo s getState.client getState.destination) (hgst : good s.1 st.gst) :
    ∀ x ∈ r.placed s, GrCarries good x := by
  unfold grProcessGetRequestUnlocked at h
  split at h
  · cases h
  · rename_i getState hget
    split at h <;> cases h
    refine Outcome.forall_placed (List.forall_mem_singleton.mpr ?_) (by rintro _ ⟨⟩)
    exact (hlinked getState hget).carries rfl hgst

theorem grProcessClockTickUnlocked_carries {sendTime : Bool}
    (h : grProcessClockTickUnlocked s st sendTime = some r) :
    ∀ x ∈ r.placed s, GrCarries good x := by
  cases h
  refine Outcome.forall_placed (fun o ho => ?_) (by rintro _ ⟨⟩)
  rcases List.mem_append.mp ho with ho | ho
  · obtain ⟨_, -, rfl⟩ := List.mem_map.mp ho
    exact grCarries_none rfl
  · rw [List.mem_singleton.mp ho]
    exact grCarries_none rfl

theorem grReplicaUpdateOutcome_carries (st : GrServerState c) (source : Replica c)
    (a : List (GrReplicaUpdate c) × Option (GrReplicaUpdate c)) :
    ∀ x ∈ (grReplicaUpdateOutcome st source a).placed s, GrCarries good x := by
  refine Outcome.forall_placed (List.forall_mem_nil _) fun e he => ?_
  obtain ⟨queue, n⟩ := a
  cases n with
  | none => cases he
  | some update =>
    cases he
    exact grCarries_none rfl

theorem grProcessSliceRequestUnlocked_carries {request : GrSliceRequest c}
    (h : grProcessSliceRequestUnlocked s st request = some r) (hfrom : request.fromLpid.1 = s.1)
    (hgst : good s.1 st.gst) : ∀ x ∈ r.placed s, GrCarries good x := by
  unfold grProcessSliceRequestUnlocked at h
  split at h <;> cases h
  refine Outcome.forall_placed (List.forall_mem_singleton.mpr ?_) (by rintro _ ⟨⟩)
  rw [← hfrom] at hgst
  exact grCarries_some rfl hgst

/-- A slice that arrives is kept, or it is the last one, and the transaction is answered. -/
theorem grProcessSliceResponseUnlocked_carries {slice : GrSliceResponse c}
    (h : grProcessSliceResponseUnlocked s st slice = some r) (hformed : GrFormed s st)
    (hlinked : GrLinked s st) (hst : GrTimesKept (good s.1) st) (hslice : good s.1 slice.gst) :
    ∀ x ∈ r.placed s, GrCarries good x := by
  have hwork : GrWork s st (.sliceResponseUnlocked slice) r := grReceive_work (.inr rfl) h
  cases hwork with
  | receive _ hget => exact Outcome.forall_placed (List.forall_mem_nil _) (by rintro _ ⟨⟩)
  | @receiveLast _ slice' snapshot rotx hevent hget _ hrotx =>
    obtain rfl : slice = slice' := by rcases hevent with hevent | hevent <;> cases hevent; rfl
    refine Outcome.forall_placed (List.forall_mem_singleton.mpr ?_) (by rintro _ ⟨⟩)
    have hhome := hlinked.rotx _ rotx hrotx
    have hsnapshot := (hst.snapshot _ snapshot hget).1
    rw [← hhome] at hsnapshot hslice
    refine grCarries_some rfl ?_
    show good rotx.client.1 (if snapshot.gst < slice.gst then slice.gst else snapshot.gst)
    split
    · exact hslice
    · exact hsnapshot
  | abroad hevent hget hclient => exact absurd (hformed.snapshot _ _ hget) hclient
  | other he => cases he
  | wake he => cases he
  | sliceServe he => rcases he with he | ⟨he, -⟩ <;> cases he

/-- **Handlers pass stable times on.**  What a handler leaves behind carries the stable time of the
event, of the server or of one of its slots. -/
theorem grProcessEvent_carries (h : grProcessEvent s st e = some r) (hformed : GrFormed s st)
    (hlinked : GrLinked s st) (hrouted : GrRouted (.inl s, e)) (hst : GrTimesKept (good s.1) st)
    (hgst : good s.1 st.gst) (he : GrCarries good (.inl s, e)) :
    ∀ x ∈ r.placed s, GrCarries good x := by
  -- a handler that leaves one event behind, or goes on to one
  have hnone : ∀ {o : GrOut c} {st : GrServerState c} {noTime : Bool}, o.event.gst? = none →
      ∀ x ∈ ({ state := st, outs := [o], noTime := noTime } : GrOutcome c).placed s,
        GrCarries good x :=
    fun ho => Outcome.forall_placed (List.forall_mem_singleton.mpr (grCarries_none ho))
      (by rintro _ ⟨⟩)
  have hnext : ∀ {cont : Cont (GrEvent c)} {st : GrServerState c} {noTime : Bool},
      (∀ e' ∈ cont.event?, GrCarries good (.inl s, e')) →
      ∀ x ∈ ({ state := st, noTime := noTime, cont := cont } : GrOutcome c).placed s,
        GrCarries good x :=
    fun hcont => Outcome.forall_placed (List.forall_mem_nil _) hcont
  -- a handler that updates the stable time, and then goes on to an event
  have hwake : ∀ {gst : ℚ} {cont : Cont (GrEvent c)} {st' : GrServerState c},
      (∀ e' ∈ cont.event?, GrCarries good (.inl s, e')) →
      ∀ x ∈ ({ state := st', outs := (grUpdateGst st gst).2, cont := cont } : GrOutcome c).placed s,
        GrCarries good x :=
    fun hcont => Outcome.forall_placed (grUpdateGst_carries hst _) hcont
  cases e with
  | getSnapshotResponse | rotxResponse | clientTick => cases h
  | getRequest request =>
    simp only [grProcessEvent, grProcessGetRequest] at h
    split at h
    · split at h
      · cases h
      · cases h
        refine Outcome.forall_placed (List.forall_mem_singleton.mpr ?_) fun e' he' => ?_
        · exact grCarries_some rfl (he _ rfl)
        · split at he' <;> cases he'
          exact grCarries_some rfl (he _ rfl)
    · split at h
      · cases h
        exact hnext (by rintro _ ⟨⟩; exact grCarries_none rfl)
      · refine grProcessGetRequestUnlocked_carries h (fun getState hget => ?_) hgst
        rw [ptrArrayPut_get, if_pos rfl] at hget
        cases hget
        exact Routed.repliesTo hrouted
  | forwardGetRequestLocked request =>
    cases h
    exact hwake (by rintro _ ⟨⟩)
  | getRequestLocked id =>
    simp only [grProcessEvent, grProcessGetRequestLocked] at h
    split at h <;> cases h
    exact hwake (by rintro _ ⟨⟩; exact grCarries_none rfl)
  | getRequestUnlocked id =>
    exact grProcessGetRequestUnlocked_carries h (fun getState hget => hlinked.get id getState hget)
      hgst
  | getResponse response =>
    cases h
    have hhome : response.client.server = s := hrouted
    refine Outcome.forall_placed (List.forall_mem_singleton.mpr ?_) (by rintro _ ⟨⟩)
    have hgood := he response.gst rfl
    rw [← hhome] at hgood
    exact grCarries_some rfl hgood
  | putRequest request =>
    simp only [grProcessEvent, grProcessPutRequest] at h
    split at h
    · split at h <;> cases h
      exact hnone rfl
    · split at h <;> cases h
      · exact hnone rfl
      · exact hnext (by rintro _ ⟨⟩; exact grCarries_none rfl)
  | putRequestLocked id =>
    simp only [grProcessEvent, grProcessPutRequestLocked] at h
    split at h
    · cases h
    · split at h <;> cases h
      exact hnext (by rintro _ ⟨⟩; exact grCarries_none rfl)
  | putRequestUnlocked id =>
    simp only [grProcessEvent, grProcessPutRequestUnlocked] at h
    split at h
    · cases h
    · rename_i putState _
      split at h <;> cases h
      refine Outcome.forall_placed (fun o ho => ?_) (by rintro _ ⟨⟩)
      rcases List.mem_cons.mp ho with rfl | ho
      · refine grCarries_none ?_
        cases putState.destination <;> rfl
      · split at ho
        · cases ho
        · obtain ⟨_, -, rfl⟩ := List.mem_map.mp ho
          exact grCarries_none rfl
  | putResponse response =>
    cases h
    exact hnone rfl
  | replicaUpdate update =>
    obtain ⟨a, -, rfl⟩ := Option.map_eq_some_iff.mp h
    exact grReplicaUpdateOutcome_carries st update.sourceReplica a
  | replicaUpdateUnlocked update =>
    obtain ⟨a, -, rfl⟩ := Option.map_eq_some_iff.mp h
    exact grReplicaUpdateOutcome_carries st update.sourceReplica a
  | replicaUpdateLocked update =>
    simp only [grProcessEvent, grProcessReplicaUpdateLocked] at h
    split at h <;> cases h
    exact hnext (by rintro _ ⟨⟩; exact grCarries_none rfl)
  | lstFromLeaf leafLst =>
    simp only [grProcessEvent, grProcessLstFromLeaf, grSendLstToParent] at h
    split at h
    · cases h
    · split at h
      · split at h
        · cases h
          exact hnext (by rintro _ ⟨⟩; exact grCarries_none rfl)
        · cases h
          exact hnone rfl
      · cases h
        exact hnext (by rintro _ ⟨⟩)
  | lstFromLeafRootLocked =>
    cases h
    exact hwake (by rintro _ ⟨⟩; exact grCarries_none rfl)
  | lstFromLeafRootUnlocked =>
    cases h
    exact Outcome.forall_placed (grSendGst_carries hgst) (by rintro _ ⟨⟩)
  | startGstComputation =>
    simp only [grProcessEvent, grProcessStartGstComputation] at h
    split at h
    · split at h <;> cases h
      · refine Outcome.forall_placed (fun o ho => ?_) (by rintro _ ⟨⟩)
        rcases List.mem_append.mp ho with ho | ho
        · exact grUpdateGst_carries hst _ o ho
        · rw [List.mem_singleton.mp ho]
          exact grCarries_none rfl
      · exact hnone rfl
    · cases h
  | gstFromRoot rootGst =>
    cases h
    exact hnext (by rintro _ ⟨⟩; exact grCarries_some rfl (he _ rfl))
  | gstFromRootLocked rootGst =>
    cases h
    exact hwake (by rintro _ ⟨⟩; exact grCarries_some rfl (he _ rfl))
  | gstFromRootUnlocked rootGst =>
    simp only [grProcessEvent, grProcessGstFromRootUnlocked] at h
    split at h <;> cases h
    · exact hnone rfl
    · exact Outcome.forall_placed (grSendGst_carries (he _ rfl)) (by rintro _ ⟨⟩)
  | getSnapshotRequest request =>
    cases h
    exact hnext (by rintro _ ⟨⟩; exact grCarries_none rfl)
  | getSnapshotRequestLocked id =>
    simp only [grProcessEvent, grProcessGetSnapshotRequestLocked] at h
    split at h <;> cases h
    exact hwake (by rintro _ ⟨⟩; exact grCarries_none rfl)
  | getSnapshotRequestUnlocked id =>
    simp only [grProcessEvent, grProcessGetSnapshotRequestUnlocked] at h
    split at h
    · cases h
    · rename_i snapshot hget
      cases h
      refine Outcome.forall_placed (fun o ho => ?_) (by rintro _ ⟨⟩)
      obtain ⟨i, hi, rfl⟩ := List.mem_mapIdx.mp ho
      exact grCarries_some rfl (hst.snapshot id snapshot hget).2
  | sliceRequest request =>
    simp only [grProcessEvent, grProcessSliceRequest] at h
    split at h
    · cases h
      exact hnext (by rintro _ ⟨⟩; exact grCarries_some rfl (he _ rfl))
    · exact grProcessSliceRequestUnlocked_carries h hrouted hgst
  | sliceRequestLocked request =>
    cases h
    exact hwake (by rintro _ ⟨⟩; exact grCarries_some rfl (he _ rfl))
  | sliceRequestUnlocked request => exact grProcessSliceRequestUnlocked_carries h hrouted hgst
  | sliceResponse slice =>
    simp only [grProcessEvent, grProcessSliceResponse] at h
    split at h
    · cases h
      exact hnext (by rintro _ ⟨⟩; exact grCarries_some rfl (he _ rfl))
    · exact grProcessSliceResponseUnlocked_carries h hformed hlinked hst (he _ rfl)
  | sliceResponseLocked slice =>
    cases h
    exact hwake (by rintro _ ⟨⟩; exact grCarries_some rfl (he _ rfl))
  | sliceResponseUnlocked slice =>
    exact grProcessSliceResponseUnlocked_carries h hformed hlinked hst (he _ rfl)
  | rotxRequest request =>
    cases h
    refine Outcome.forall_placed (fun o ho => ?_) (by rintro _ ⟨⟩)
    dsimp only at ho
    split at ho
    · cases ho
    · rw [List.mem_singleton.mp ho]
      exact grCarries_some rfl (he _ rfl)
  | clockTick =>
    simp only [grProcessEvent, grProcessClockTick] at h
    split at h
    · cases h
      exact hnext (by rintro _ ⟨⟩; exact grCarries_none rfl)
    · exact grProcessClockTickUnlocked_carries h
  | clockTickLocked =>
    simp only [grProcessEvent, grProcessClockTickLocked] at h
    split at h <;> cases h <;> exact hnext (by rintro _ ⟨⟩; exact grCarries_none rfl)
  | clockTickUnlocked sendTime => exact grProcessClockTickUnlocked_carries h
  | heartbeat heartbeat =>
    cases h
    refine hnext fun e' he' => ?_
    split at he' <;> cases he'
    exact grCarries_none rfl
  | heartbeatLocked heartbeat =>
    cases h
    exact hnext (by rintro _ ⟨⟩)

/-- What a client knows of stable times: the later of what it knew and what it is told, if it is told
something. -/
theorem GrLearn.gst {k : ClientId c} {st st' : GrClientState c} (h : GrLearn k st e st')
    {good : ℚ → Prop} (hzero : good 0) (hst : good st.gst) (he : ∀ gst ∈ e.gst?, good gst) :
    good st'.gst := by
  have hmax : ∀ {gst : ℚ}, good gst → good (if st.gst < gst then gst else st.gst) := by
    intro gst hgst
    split
    · exact hgst
    · exact hst
  cases h with
  | get response => exact hmax (he _ rfl)
  | put response => exact hmax hzero
  | rotx response => exact hmax (he _ rfl)
  | tick => exact hst

/-- A client sends the stable time that it knows, to its server. -/
theorem GrAsk.carries {k : ClientId c} {st : GrClientState c}
    {x : (ServerId c ⊕ ClientId c) × GrEvent c} (h : GrAsk k st x) (hst : good k.1 st.gst) :
    GrCarries good x := by
  cases h with
  | tick | put => exact grCarries_none rfl
  | get | rotx => exact grCarries_some rfl hst

/-! ## 2. What is promised -/

/-- When the only partition of a data center computes the stable time, it takes the first entry of its
version vector.  If this raises the stable time, every other entry has come as far before. -/
def GrFirstEntryHeld (past : List (GrAct c)) : GrAct c → Prop
  | .server s _ .startGstComputation st _ => s.2.val = 0 → st.gst < st.versionVector c.replica0 →
      ∀ i, st.versionVector c.replica0 ≤ largestHeld GrServerState.versionVector s i past
  | _ => True

/-- The stable time is a promise for every entry of the version vectors of the data center. -/
def GrPromised (h : List (GrAct c)) (r : Replica c) (gst : ℚ) : Prop :=
  ∀ i, Promised GrServerState.versionVector r i gst h

/-- It is one, if all handler calls met the condition. -/
def GrPromisedIf (h : List (GrAct c)) (r : Replica c) (gst : ℚ) : Prop :=
  EachMeets GrFirstEntryHeld h → GrPromised h r gst

variable {h : List (GrAct c)} {a : GrAct c} {r₀ : Replica c} {gst : ℚ}

theorem GrPromised.cons (hgst : GrPromised h r₀ gst) : GrPromised (a :: h) r₀ gst :=
  fun i => (hgst i).cons

theorem GrPromisedIf.cons (hgst : GrPromisedIf h r₀ gst) : GrPromisedIf (a :: h) r₀ gst :=
  fun hmet => (hgst hmet.2).cons

theorem GrPromisedIf.zero : GrPromisedIf h r₀ 0 := fun _ _ => .zero

theorem GrTimesKept.imp {good good' : ℚ → Prop} (hst : GrTimesKept good st)
    (himp : ∀ gst, good gst → good' gst) : GrTimesKept good' st :=
  ⟨fun id x hx => himp _ (hst.get id x hx),
    fun id x hx => ⟨himp _ (hst.snapshot id x hx).1, himp _ (hst.snapshot id x hx).2⟩,
    fun id x hx => himp _ (hst.rotx id x hx)⟩

theorem GrCarries.imp {good good' : Replica c → ℚ → Prop}
    {x : (ServerId c ⊕ ClientId c) × GrEvent c} (hx : GrCarries good x)
    (himp : ∀ r gst, good r gst → good' r gst) : GrCarries good' x :=
  fun gst hgst => himp _ gst (hx gst hgst)

section Runs

variable {setup : Setup c (GrEvent c)} {Q : GrAct c → Prop} {M : GrMail c}

/-- What the root reads is promised, and what a server was told or has kept. -/
theorem grNextGst_promised (hr : Mail.Run (grProgram c) Q (grWorld setup).config.mail M h)
    (hev : (.inl s, e) ∈ M.events) (hst : GrTimesKept (GrPromisedIf h s.1) (M.server s))
    (he : GrCarries (GrPromisedIf h) (.inl s, e)) (hstart : e ≠ .startGstComputation) :
    ∀ gst ∈ grNextGst s (M.server s) e, GrPromisedIf h s.1 gst := by
  have hinit : ∀ s i, ((grWorld setup).config.mail.server s).versionVector i ≤ 0 :=
    fun _ _ => le_rfl
  intro gst hgst
  cases e with
  | startGstComputation => exact absurd rfl hstart
  | lstFromLeafRootLocked =>
    cases hgst
    intro _ i
    refine (gr_rounds_kept hr).minimum_promised (fun s => hr.contributions_le ?_ hinit s) hev rfl
    intro s st e v hv
    -- a partition contributes its least entry
    have hleast : grMinReplicaVersion st ≤ st.versionVector i :=
      (grMinReplicaVersion_isLeast st).2 ⟨i, rfl⟩
    cases e with
    | startGstComputation | lstFromLeaf =>
      simp only [grRounds] at hv
      split at hv
      · rw [List.mem_singleton.mp hv]
        exact hleast
      · cases hv
    | _ => cases hv
  | getRequestLocked id =>
    obtain ⟨getState, hget, rfl⟩ := Option.map_eq_some_iff.mp hgst
    exact hst.get id getState hget
  | getSnapshotRequestLocked id =>
    obtain ⟨snapshot, hget, rfl⟩ := Option.map_eq_some_iff.mp hgst
    exact (hst.snapshot id snapshot hget).1
  | forwardGetRequestLocked | sliceRequestLocked | sliceResponseLocked | gstFromRootLocked =>
    cases hgst
    exact he _ rfl
  | _ => cases hgst

/-- What the only partition takes is promised, if the condition is met. -/
theorem grProcessStartGstComputation_promised {t : ℚ}
    (hserve : grServerProcessEvent s t st .startGstComputation = some r)
    (hst : GrPromisedIf h s.1 st.gst) :
    GrPromisedIf (.server s t .startGstComputation st r :: h) s.1 r.state.gst := by
  have hr := grServerProcessEvent_some hserve
  rw [grProcessEvent_nextGst hr, grNextGst_now]
  simp only [grNextGst]
  split
  · rename_i hroot
    rw [Option.elim_some]
    rintro ⟨hheld, hmet⟩ i p
    have hleaf : isLeafPartition s.2 = true := by
      simp only [grProcessEvent, grProcessStartGstComputation] at hr
      split at hr
      · assumption
      · cases hr
    rcases le_or_gt (st.versionVector c.replica0) st.gst with hle | hlt
    · rw [max_eq_left hle]
      exact (hst hmet i).cons p
    · rw [max_eq_right hlt.le, only_partition hroot hleaf p]
      exact (hheld hroot hlt i).trans largestHeld_cons
  · exact hst.cons

/-- **Every stable time is a promise**, at the servers and in their slots, with the clients and on its
way, if the only partition of a data center takes its first entry only when it may. -/
theorem gr_promised (hr : Mail.Run (grProgram c) Q (grWorld setup).config.mail M h) :
    (∀ s, GrPromisedIf h s.1 (M.server s).gst ∧ GrTimesKept (GrPromisedIf h s.1) (M.server s)) ∧
      (∀ k, GrPromisedIf h k.1 (M.client k).gst) ∧
        ∀ x ∈ M.events, GrCarries (GrPromisedIf h) x := by
  refine hr.flow_all
    (fun h s st => GrPromisedIf h s.1 st.gst ∧ GrTimesKept (GrPromisedIf h s.1) st)
    (fun h k st => GrPromisedIf h k.1 st.gst) (fun h => GrCarries (GrPromisedIf h))
    (fun hst => ⟨hst.1.cons, hst.2.imp fun _ => .cons⟩) .cons (fun hx => hx.imp fun _ _ => .cons)
    ?_ ?_ (fun _ => ⟨.zero, by rintro id _ ⟨⟩, by rintro id _ ⟨⟩, by rintro id _ ⟨⟩⟩)
    (fun _ => .zero) ?_
  · rintro M h s t e r hrun hev hserve ⟨hgst, hst⟩ he
    have hr := grServerProcessEvent_some hserve
    have hformed : GrFormed s { M.server s with now := t, clock := c.clock s t } :=
      ((gr_formed hrun).1 s).of_eq rfl rfl rfl rfl
    have hlinked : GrLinked s { M.server s with now := t, clock := c.clock s t } :=
      ((gr_routed hrun).1 s).of_eq rfl rfl rfl
    have hst' : GrTimesKept (GrPromisedIf (.server s t e (M.server s) r :: h) s.1)
        { M.server s with now := t, clock := c.clock s t } :=
      (hst.imp fun _ => .cons).of_eq rfl rfl rfl
    have he' : GrCarries (GrPromisedIf (.server s t e (M.server s) r :: h)) (.inl s, e) :=
      he.imp fun _ _ => .cons
    have hafter : GrPromisedIf (.server s t e (M.server s) r :: h) s.1 r.state.gst := by
      by_cases hstart : e = .startGstComputation
      · subst hstart
        exact grProcessStartGstComputation_promised hserve hgst
      · rw [grProcessEvent_nextGst hr, grNextGst_now]
        have hnext := grNextGst_promised hrun hev hst he hstart
        cases hn : grNextGst s (M.server s) e with
        | none => exact hgst.cons
        | some gst =>
          exact fun hmet i => ((hgst hmet.2 i).max (hnext gst hn hmet.2 i)).cons
    exact ⟨⟨hafter, (grProcessEvent_work hr).timesKept hformed .zero hst' he' hafter⟩,
      grProcessEvent_carries hr hformed hlinked ((gr_routed hrun).2 _ hev) hst' hgst.cons he'⟩
  · intro M h k t decision e r hrun hasked hst he
    obtain ⟨st', hlearn, ⟨requestTime, hsame⟩, hasks⟩ := grClientProcessEvent_asks hasked
    have hst' : GrPromisedIf h k.1 st'.gst := hlearn.gst .zero hst he
    have hr : GrPromisedIf (.client k t e (M.client k) r :: h) k.1 r.1.gst := by
      rw [hsame]
      exact hst'.cons
    exact ⟨hr, fun x hx => (hasks x hx).carries hr⟩
  · intro x hx
    rcases Setup.mem_mail hx with ⟨s, rfl, -⟩ | ⟨s, rfl⟩ | ⟨k, rfl⟩ <;> exact grCarries_none rfl

end Runs

/-! ## 3. Every run of the simulator -/

/-- The stable times of all servers, slots, messages and clients of a world are promises of their
data centers. -/
structure GrTimesPromised (W : GrWorld c) (h : List (GrAct c)) : Prop where
  server : ∀ s, GrPromised h s.1 (W.servers s).state.gst
  slots : ∀ s, GrTimesKept (GrPromised h s.1) (W.servers s).state
  message : ∀ x ∈ W.config.mail.events, GrCarries (GrPromised h) x
  client : ∀ k, GrPromised h k.1 (W.clients k).state.gst

theorem gr_times_promised {setup : Setup c (GrEvent c)} {C : GrCond c} {W : GrWorld c}
    (hrun : World.Run (grProgram c) setup.conf C (grWorld setup) W h)
    (hmet : EachMeets GrFirstEntryHeld h) : GrTimesPromised W h := by
  obtain ⟨hserver, hclient, hmessage⟩ :=
    gr_promised (hrun.config.mail (Q := fun _ => True) fun _ _ => trivial)
  exact ⟨fun s => (hserver s).1 hmet, fun s => (hserver s).2.imp fun _ hgst => hgst hmet,
    fun x hx => (hmessage x hx).imp fun _ _ hgst => hgst hmet, fun k => hclient k hmet⟩

/-- With several partitions nobody takes a first entry. -/
theorem grFirstEntryHeld_of_many {t : ℚ} (hmany : 1 < c.numPartitions) {past : List (GrAct c)}
    (hserve : grServerProcessEvent s t st e = some r) :
    GrFirstEntryHeld past (.server s t e st r) := by
  unfold GrFirstEntryHeld
  split
  · rename_i hact
    cases hact
    intro hroot
    have hr := grServerProcessEvent_some hserve
    simp only [grProcessEvent, grProcessStartGstComputation] at hr
    split at hr
    · rename_i hleaf
      have hone := only_partition hroot hleaf ⟨1, hmany⟩
      rw [← hone] at hroot
      cases hroot
    · cases hr
  · trivial

/-- After a step in which a server has handled an event, its state is what the handler made of it. -/
theorem World.step_server {setup : Setup c (GrEvent c)} {W W' : GrWorld c}
    {choice : Choice Decision} {t : ℚ}
    (hstep : W.step (grProgram c) setup.conf choice = some (W', some (.server s t e st r))) :
    (W'.servers s).state = r.state ∧ (W.servers s).state = st ∧
      grServerProcessEvent s t st e = some r := by
  obtain ⟨B, hB, ⟨hnone, -⟩ | ⟨x, hx, hs⟩⟩ := World.step_becomes hstep
  · cases hnone
  · cases hx
    have hbefore : B.server = W.config.server := congrArg View.server (Silent.view hB [])
    generalize hA : W'.config = A' at hs
    cases hs with
    | serve hpool ht hready hserve hnew =>
      have hstate := congrFun (congrArg Config.server hA) s
      dsimp only at hstate
      rw [Function.update_self] at hstate
      exact ⟨hstate, (congrFun hbefore s).symm, hserve⟩

/-- **Safety of the stable time.**  With several partitions, no stable time of a server, a slot, a
message or a client is larger than the largest value that any entry of the version vector has held at
any partition of the data center.  The only partition of a data center takes the first entry of its
version vector; it is the same as long as this is done only when no other entry is behind, and a step
in which it is not breaks the promise. -/
theorem gr_time_safety (setup : Setup c (GrEvent c)) :
    (1 < c.numPartitions → ∀ (W : GrWorld c) (h : List (GrAct c)),
      World.Run (grProgram c) setup.conf (fun _ _ => True) (grWorld setup) W h →
        GrTimesPromised W h) ∧
    (∀ (W : GrWorld c) (h : List (GrAct c)),
      World.Run (grProgram c) setup.conf (fun v => GrFirstEntryHeld v.past) (grWorld setup) W h →
        GrTimesPromised W h) ∧
    ∀ (W W' : GrWorld c) (h : List (GrAct c)) (choice : Choice Decision) (a : GrAct c),
      World.Run (grProgram c) setup.conf (fun _ _ => True) (grWorld setup) W h →
      W.step (grProgram c) setup.conf choice = some (W', some a) →
        ¬GrFirstEntryHeld h a → ¬GrTimesPromised W' (a :: h) := by
  refine ⟨fun hmany W h hrun => gr_times_promised hrun ?_,
    fun W h hrun => gr_times_promised hrun hrun.config.eachMeets,
    fun W W' h choice a hrun hstep hnot hpromised => hnot ?_⟩
  · refine EachMeets.of_forall fun a ha past => ?_
    cases a with
    | client => trivial
    | server s t e st r => exact grFirstEntryHeld_of_many hmany (hrun.config.served ha)
  · unfold GrFirstEntryHeld
    split
    · rename_i s t st r
      obtain ⟨hafter, hbefore, hserve⟩ := World.step_server hstep
      have hr := grServerProcessEvent_some hserve
      intro hroot hlt i
      -- the stable time is the first entry now, and the version vector is as it was
      have hgst : (W'.servers s).state.gst = st.versionVector c.replica0 := by
        rw [hafter, grProcessEvent_nextGst hr]
        simp only [grNextGst, hroot, if_true, Option.elim_some]
        exact max_eq_right hlt.le
      have hvector : r.state.versionVector i ≤ largestHeld GrServerState.versionVector s i h := by
        rw [grProcessEvent_vector hr]
        have hheld : (W.config.mail.server s).versionVector i ≤
            largestHeld GrServerState.versionVector s i h :=
          (hrun.config.mail (Q := fun _ => True) fun _ _ => trivial).le_largestHeld
            (fun _ _ => le_rfl) s i
        rw [← hbefore]
        exact hheld
      have hle := hpromised.server s i s.2
      rw [hgst, largestHeld, if_pos rfl, max_eq_right hvector] at hle
      exact hle
    · trivial

/-- The test of `GrFirstEntryHeld`. -/
def grFirstEntryHeldTest :
    CallTest (ServerId c) (ClientId c) (GrEvent c) (GrServerState c) (GrClientState c)
  | _, past, .server s _ .startGstComputation st _ =>
    decide (s.2.val = 0 → st.gst < st.versionVector c.replica0 →
      ∀ i, st.versionVector c.replica0 ≤ largestHeld GrServerState.versionVector s i past)
  | _, _, _ => true

theorem grFirstEntryHeldTest_iff {W : GrWorld c} {past : List (GrAct c)} :
    grFirstEntryHeldTest W past a = true ↔ GrFirstEntryHeld past a := by
  cases a with
  | client => exact iff_of_true rfl trivial
  | server s t e st r =>
    cases e with
    | startGstComputation => exact decide_eq_true_iff
    | _ => exact iff_of_true rfl trivial

theorem grFirstEntryHeld_tested :
    Cond.TestedBy (fun v => GrFirstEntryHeld (c := c) v.past) grFirstEntryHeldTest :=
  fun _ _ _ => grFirstEntryHeldTest_iff.mp

/-- The pair, but with stable times that are computed soon after the first clock ticks. -/
def hasty : Cluster :=
  { pair with
    gstInterval := 11 / 10
    gstInterval_pos := rat_eleven_tenths_pos }

theorem start_le_hasty_clockInterval : 2 / 5 ≤ hasty.clockInterval := by
  norm_num [hasty, pair, smallCluster]

theorem start_le_hasty_gstInterval : 2 / 5 ≤ hasty.gstInterval := by
  norm_num [hasty]

theorem start_le_nobody : ∀ x ∈ ([] : List (ℚ × ClientId hasty)), 2 / 5 ≤ x.1 :=
  List.forall_mem_nil _

/-- Nobody asks for anything, and messages take `delay`. -/
def hastySetup (delay : ℚ) : Setup hasty (GrEvent hasty) :=
  smallSetup _ delay start_le_hasty_clockInterval start_le_hasty_gstInterval [] start_le_nobody

/-- Both replicas tick.  If messages take 1/10, the next event is a GST computation, and the
heartbeats are still on their way. -/
def hastyRun : List (Choice Decision) :=
  choices [(1, 0), (2, 0), (2, 0), (2, 0), (2, 2), (2, 2), (4, 0), (6, 0)] [] []

/-- If messages take 1/100, the heartbeats have arrived when the first stable time is computed. -/
def calmRun : List (Choice Decision) :=
  choices [(1, 0), (2, 0), (2, 0), (2, 0), (2, 2), (2, 2), (2, 0), (4, 0), (3, 0), (4, 0), (4, 0),
    (4, 0), (4, 0), (4, 0), (0, 1)] [] []

/-- `resultRun` of `Grv/StableVector.lean`, for `gr`: the last partition hears of the first stable
time. -/
def toldRun : List (Choice Decision) :=
  roundRun ++
    choices [(3, 0), (3, 1), (3, 0), (3, 0), (3, 0), (3, 1), (3, 0), (3, 0), (3, 0)] [] []

/-- In the first run the stable time of the last of three partitions is 13/25, and so is what all of
them have held.  In the second one the only partition has heard of its sibling when it computes its
stable time; in the third one it has not, and the promise is broken. -/
theorem gr_time_safety_runs :
    (∃ W h, World.Run (grProgram trio) (writerSetup _).conf (fun _ _ => True)
        (grWorld (writerSetup _)) W h ∧
      ∀ p, 13 / 25 ≤ largestHeld GrServerState.versionVector (trio.replica0, p) trio.replica0 h) ∧
    (∃ W h, World.Run (grProgram hasty) (hastySetup (1 / 100)).conf
        (fun v => GrFirstEntryHeld v.past) (grWorld (hastySetup (1 / 100))) W h ∧
      ∀ i, 101 / 100 ≤ largestHeld GrServerState.versionVector (serverAt hasty 0 0) i h) ∧
    ∃ W h W' a, World.Run (grProgram hasty) (hastySetup (1 / 10)).conf (fun _ _ => True)
        (grWorld (hastySetup (1 / 10))) W h ∧
      W.step (grProgram hasty) (hastySetup (1 / 10)).conf (Choice.steady (1 / 100) 0 1 .nothing) =
        some (W', some a) ∧ ¬GrTimesPromised W' (a :: h) := by
  refine ⟨?_, ?_, ?_⟩
  · obtain ⟨W, h, hrun, hseen⟩ := World.Run.of_replay (grProgram trio) (writerSetup _).conf
      (grWorld (writerSetup _)) Cond.tested_true toldRun
      (fun x => decide ((x.1.servers (serverAt trio 0 2)).state.gst = 13 / 25)) (by decide +kernel)
    refine ⟨W, h, hrun, fun p => ?_⟩
    rw [← of_decide_eq_true hseen]
    exact ((gr_time_safety (writerSetup _)).1 (by decide) W h hrun).server (serverAt trio 0 2)
      trio.replica0 p
  · obtain ⟨W, h, hrun, hseen⟩ := World.Run.of_replay (grProgram hasty) (hastySetup (1 / 100)).conf
      (grWorld (hastySetup (1 / 100))) grFirstEntryHeld_tested calmRun
      (fun x => decide ((x.1.servers (serverAt hasty 0 0)).state.gst = 101 / 100))
      (by decide +kernel)
    refine ⟨W, h, hrun, fun i => ?_⟩
    rw [← of_decide_eq_true hseen]
    exact ((gr_time_safety (hastySetup (1 / 100))).2.1 W h hrun).server (serverAt hasty 0 0) i _
  · obtain ⟨W, h, hrun, hseen⟩ := World.Run.of_replay (grProgram hasty) (hastySetup (1 / 10)).conf
      (grWorld (hastySetup (1 / 10))) Cond.tested_true hastyRun
      (fun x => (x.1.step (grProgram hasty) (hastySetup (1 / 10)).conf
        (Choice.steady (1 / 100) 0 1 .nothing)).any fun y =>
          y.2.any fun a => !grFirstEntryHeldTest x.1 x.2 a) (by decide +kernel)
    obtain ⟨⟨W', b⟩, hstep, hfails⟩ := (Option.any_eq_true _ _).mp hseen
    obtain ⟨a, rfl, htest⟩ := (Option.any_eq_true _ _).mp hfails
    refine ⟨W, h, W', a, hrun, hstep,
      (gr_time_safety (hastySetup (1 / 10))).2.2 W W' h _ a hrun hstep fun hheld => ?_⟩
    rw [grFirstEntryHeldTest_iff.mpr hheld] at htest
    cases htest

/-- **The first entry may be ahead.**  The first replica computes its stable time before it hears of
its sibling: it takes 101/100, and the other entry of its version vector is 0. -/
theorem gr_time_safety_fails :
    ∃ W h, World.Run (grProgram hasty) (hastySetup (1 / 10)).conf (fun _ _ => True)
      (grWorld (hastySetup (1 / 10))) W h ∧ ¬GrTimesPromised W h := by
  obtain ⟨W, h, hrun, hseen⟩ := World.Run.of_replay (grProgram hasty) (hastySetup (1 / 10)).conf
    (grWorld (hastySetup (1 / 10))) Cond.tested_true
    (hastyRun ++ [Choice.steady (1 / 100) 0 1 .nothing])
    (fun x => decide (¬∀ i, (x.1.servers (serverAt hasty 0 0)).state.gst ≤
      largestHeld GrServerState.versionVector (serverAt hasty 0 0) i x.2)) (by decide +kernel)
  exact ⟨W, h, hrun, fun hpromised => of_decide_eq_true hseen fun i =>
    hpromised.server (serverAt hasty 0 0) i _⟩

end CCSim
