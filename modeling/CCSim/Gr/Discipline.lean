/-
# Requests and answers of `gr`

A request of `gr` is in a message, in a slot of `get_states`, `put_states` or `rotx_states`, or in the
answer (`grRequestView`).  Every handler passes it on (`GrWork.traces`), and what handlers send goes along the
links of the network (`grProcessEvent_sends`).
-/
import CCSim.RequestView
import CCSim.Gr.Routes

namespace CCSim

variable {c : Cluster} {s : ServerId c} {st : GrServerState c} {e : GrEvent c} {r : GrOutcome c}

/-! ## 1. The view -/

/-- The kind of request that an event is, and the one that it answers. -/
def GrEvent.requestKind : GrEvent c → Option RequestKind
  | .getRequest _ => some .get
  | .putRequest _ => some .put
  | .rotxRequest _ => some .rotx
  | _ => none

def GrEvent.responseKind : GrEvent c → Option RequestKind
  | .getResponse _ => some .get
  | .putResponse _ => some .put
  | .rotxResponse _ => some .rotx
  | _ => none

/-- The key and the proxy of a GET or a PUT. -/
def GrEvent.routing : GrEvent c → Option (Key × Option (ServerId c))
  | .getRequest request => some (request.key, request.proxy)
  | .putRequest request => some (request.key, request.proxy)
  | _ => none

/-- The client that an answer names. -/
def GrEvent.names : GrEvent c → Option (ClientId c)
  | .getResponse response => some response.client
  | .putResponse response => some response.client
  | .rotxResponse response => some response.client
  | _ => none

/-- Whose request an event is a trace of.  An answer that has reached a client is about this
client. -/
def grAbout : (ServerId c ⊕ ClientId c) × GrEvent c → Option (ClientId c × RequestKind)
  | (_, .getRequest request) => some (request.client, .get)
  | (.inl _, .getResponse response) => some (response.client, .get)
  | (.inr k, .getResponse _) => some (k, .get)
  | (_, .putRequest request) => some (request.client, .put)
  | (.inl _, .putResponse response) => some (response.client, .put)
  | (.inr k, .putResponse _) => some (k, .put)
  | (_, .rotxRequest request) => some (request.client, .rotx)
  | (.inr k, .rotxResponse _) => some (k, .rotx)
  | _ => none

/-- The requests in the slots of a server. -/
def grRequestsHeld (st : GrServerState c) : ClientId c × RequestKind → ℤ :=
  ptrArraySum (fun _ getState => Pi.single (getState.client, .get) 1) st.getStates +
    ptrArraySum (fun _ putState => Pi.single (putState.client, .put) 1) st.putStates +
    ptrArraySum (fun _ rotx => Pi.single (rotx.client, .rotx) 1) st.rotxStates

def grRequestView (c : Cluster) : RequestView c (GrEvent c) (GrServerState c) (GrClientState c) where
  requestKind := GrEvent.requestKind
  responseKind := GrEvent.responseKind
  about := grAbout
  held := grRequestsHeld
  waits st := st.requestTime.isSome
  tick := .clientTick
  routing := GrEvent.routing
  names := GrEvent.names

/-! ## 2. What servers send -/

theorem RepliesTo.gr_sends {k : ClientId c} {lpid : Lpid c} (h : RepliesTo s k lpid)
    (he : e.responseKind.isSome) : (grRequestView c).MaySend s (grSend lpid e) := by
  rcases h with ⟨rfl, rfl⟩ | ⟨rfl, hs⟩
  · exact .client rfl he
  · exact .replica hs.symm

theorem grUpdateGst_sends (st : GrServerState c) (gst : ℚ) :
    ∀ o ∈ (grUpdateGst st gst).2, (grRequestView c).MaySend s o := by
  intro o ho
  obtain ⟨id, rotx, -, rfl⟩ := grUpdateGst_out ho
  exact .self

theorem grSendGst_sends (rootGst : GrGstFromRoot) :
    ∀ o ∈ grSendGst s rootGst, (grRequestView c).MaySend s o := by
  intro o ho
  obtain ⟨p, -, rfl⟩ := List.mem_map.mp ho
  exact .replica rfl

theorem grProcessGetRequestUnlocked_sends {id : ℕ}
    (h : grProcessGetRequestUnlocked s st id = some r)
    (hlinked : ∀ getState, ptrArrayGet st.getStates id = some getState →
      RepliesTo s getState.client getState.destination) : ∀ o ∈ r.outs, (grRequestView c).MaySend s o := by
  unfold grProcessGetRequestUnlocked at h
  split at h
  · cases h
  · rename_i getState hget
    split at h <;> cases h
    exact List.forall_mem_singleton.mpr ((hlinked getState hget).gr_sends rfl)

theorem grProcessClockTickUnlocked_sends {sendTime : Bool}
    (h : grProcessClockTickUnlocked s st sendTime = some r) : ∀ o ∈ r.outs, (grRequestView c).MaySend s o := by
  cases h
  intro o ho
  rcases List.mem_append.mp ho with ho | ho
  · obtain ⟨s', hs', rfl⟩ := List.mem_map.mp ho
    exact .partition (mem_otherReplicas.mp hs').2
  · rw [List.mem_singleton.mp ho]
    exact .self

theorem grProcessSliceRequestUnlocked_sends {request : GrSliceRequest c}
    (h : grProcessSliceRequestUnlocked s st request = some r) (hfrom : request.fromLpid.1 = s.1) :
    ∀ o ∈ r.outs, (grRequestView c).MaySend s o := by
  unfold grProcessSliceRequestUnlocked at h
  split at h <;> cases h
  exact List.forall_mem_singleton.mpr (.replica hfrom)

theorem grProcessSliceResponseUnlocked_sends {slice : GrSliceResponse c}
    (h : grProcessSliceResponseUnlocked s st slice = some r) (hformed : GrFormed s st)
    (hlinked : GrLinked s st) : ∀ o ∈ r.outs, (grRequestView c).MaySend s o := by
  have hwork : GrWork s st (.sliceResponseUnlocked slice) r := grReceive_work (.inr rfl) h
  cases hwork with
  | receive => exact List.forall_mem_nil _
  | @receiveLast _ slice' snapshot rotx hevent hget _ hrotx =>
    exact List.forall_mem_singleton.mpr (.client (hlinked.rotx _ rotx hrotx) rfl)
  | abroad hevent hget hclient => exact absurd (hformed.snapshot _ _ hget) hclient
  | other he => cases he
  | wake he => cases he
  | sliceServe he => rcases he with he | ⟨he, -⟩ <;> cases he

/-- **Messages stay on the links, and clients are sent answers.** -/
theorem grProcessEvent_sends (h : grProcessEvent s st e = some r) (hformed : GrFormed s st)
    (hlinked : GrLinked s st) (hrouted : GrRouted (.inl s, e)) :
    ∀ o ∈ r.outs, (grRequestView c).MaySend s o := by
  cases e with
  | getSnapshotResponse | rotxResponse | clientTick => cases h
  | getRequest request =>
    simp only [grProcessEvent, grProcessGetRequest] at h
    split at h
    · split at h
      · cases h
      · cases h
        exact List.forall_mem_singleton.mpr (.replica rfl)
    · split at h
      · cases h
        exact List.forall_mem_nil _
      · refine grProcessGetRequestUnlocked_sends h fun getState hget => ?_
        rw [ptrArrayPut_get, if_pos rfl] at hget
        cases hget
        exact Routed.repliesTo hrouted
  | getRequestUnlocked id =>
    exact grProcessGetRequestUnlocked_sends h fun getState hget => hlinked.get id getState hget
  | forwardGetRequestLocked request | lstFromLeafRootLocked | gstFromRootLocked
  | sliceRequestLocked | sliceResponseLocked =>
    cases h
    exact grUpdateGst_sends _ _
  | getRequestLocked id =>
    simp only [grProcessEvent, grProcessGetRequestLocked] at h
    split at h <;> cases h
    exact grUpdateGst_sends _ _
  | getSnapshotRequestLocked id =>
    simp only [grProcessEvent, grProcessGetSnapshotRequestLocked] at h
    split at h <;> cases h
    exact grUpdateGst_sends _ _
  | getResponse response =>
    cases h
    exact List.forall_mem_singleton.mpr (.client hrouted rfl)
  | putResponse response =>
    cases h
    exact List.forall_mem_singleton.mpr (.client hrouted rfl)
  | putRequest request =>
    simp only [grProcessEvent, grProcessPutRequest] at h
    split at h
    · split at h <;> cases h
      exact List.forall_mem_singleton.mpr (.replica rfl)
    · split at h <;> cases h
      · exact List.forall_mem_singleton.mpr .self
      · exact List.forall_mem_nil _
  | putRequestLocked id =>
    simp only [grProcessEvent, grProcessPutRequestLocked] at h
    split at h
    · cases h
    · split at h <;> cases h
      exact List.forall_mem_nil _
  | putRequestUnlocked id =>
    simp only [grProcessEvent, grProcessPutRequestUnlocked] at h
    split at h
    · cases h
    · rename_i putState hput
      split at h <;> cases h
      refine List.forall_mem_cons.mpr ⟨(hlinked.put id putState hput).gr_sends rfl, fun o ho => ?_⟩
      split at ho
      · cases ho
      · obtain ⟨s', hs', rfl⟩ := List.mem_map.mp ho
        exact .partition (mem_otherReplicas.mp hs').2
  | replicaUpdate update | replicaUpdateUnlocked update =>
    obtain ⟨a, -, rfl⟩ := Option.map_eq_some_iff.mp h
    exact List.forall_mem_nil _
  | replicaUpdateLocked update =>
    simp only [grProcessEvent, grProcessReplicaUpdateLocked] at h
    split at h <;> cases h
    exact List.forall_mem_nil _
  | lstFromLeaf leafLst =>
    simp only [grProcessEvent, grProcessLstFromLeaf, grSendLstToParent] at h
    split at h
    · cases h
    · split at h
      · split at h
        · cases h
          exact List.forall_mem_nil _
        · cases h
          exact List.forall_mem_singleton.mpr (.replica rfl)
      · cases h
        exact List.forall_mem_nil _
  | lstFromLeafRootUnlocked =>
    cases h
    exact grSendGst_sends _
  | startGstComputation =>
    simp only [grProcessEvent, grProcessStartGstComputation] at h
    split at h
    · split at h <;> cases h
      · intro o ho
        rcases List.mem_append.mp ho with ho | ho
        · exact grUpdateGst_sends _ _ o ho
        · rw [List.mem_singleton.mp ho]
          exact .self
      · exact List.forall_mem_singleton.mpr (.replica rfl)
    · cases h
  | gstFromRoot | getSnapshotRequest =>
    cases h
    exact List.forall_mem_nil _
  | gstFromRootUnlocked rootGst =>
    simp only [grProcessEvent, grProcessGstFromRootUnlocked] at h
    split at h <;> cases h
    · exact List.forall_mem_singleton.mpr .self
    · exact grSendGst_sends _
  | getSnapshotRequestUnlocked id =>
    simp only [grProcessEvent, grProcessGetSnapshotRequestUnlocked] at h
    split at h
    · cases h
    · cases h
      intro o ho
      obtain ⟨i, hi, rfl⟩ := List.mem_mapIdx.mp ho
      exact .replica rfl
  | sliceRequest request =>
    simp only [grProcessEvent, grProcessSliceRequest] at h
    split at h
    · cases h
      exact List.forall_mem_nil _
    · exact grProcessSliceRequestUnlocked_sends h hrouted
  | sliceRequestUnlocked request => exact grProcessSliceRequestUnlocked_sends h hrouted
  | sliceResponse slice =>
    simp only [grProcessEvent, grProcessSliceResponse] at h
    split at h
    · cases h
      exact List.forall_mem_nil _
    · exact grProcessSliceResponseUnlocked_sends h hformed hlinked
  | sliceResponseUnlocked slice =>
    exact grProcessSliceResponseUnlocked_sends h hformed hlinked
  | rotxRequest request =>
    cases h
    intro o ho
    dsimp only at ho
    split at ho
    · cases ho
    · rw [List.mem_singleton.mp ho]
      exact .self
  | clockTick =>
    simp only [grProcessEvent, grProcessClockTick] at h
    split at h
    · cases h
      exact List.forall_mem_nil _
    · exact grProcessClockTickUnlocked_sends h
  | clockTickLocked =>
    simp only [grProcessEvent, grProcessClockTickLocked] at h
    split at h <;> cases h <;> exact List.forall_mem_nil _
  | clockTickUnlocked sendTime => exact grProcessClockTickUnlocked_sends h
  | heartbeat | heartbeatLocked =>
    cases h
    exact List.forall_mem_nil _

/-! ## 3. What servers do -/

theorem grWeight (x : (ServerId c ⊕ ClientId c) × GrEvent c) :
    (grRequestView c).weight x = (grAbout x).elim 0 fun y => Pi.single y 1 :=
  RequestView.weight_eq x

theorem grAbout_other {x : (ServerId c ⊕ ClientId c) × GrEvent c} (h : x.2.Other) :
    grAbout x = none := by
  obtain ⟨p, e⟩ := x
  cases e <;> first | exact h.elim | (cases p <;> rfl)

theorem grWeight_other {x : (ServerId c ⊕ ClientId c) × GrEvent c} (h : x.2.Other) :
    (grRequestView c).weight x = 0 :=
  RequestView.weight_none (grAbout_other h)

theorem sum_grWeight_other {l : List ((ServerId c ⊕ ClientId c) × GrEvent c)}
    (h : ∀ x ∈ l, grAbout x = none) : (l.map (grRequestView c).weight).sum = 0 := by
  refine List.sum_eq_zero fun y hy => ?_
  obtain ⟨x, hx, rfl⟩ := List.mem_map.mp hy
  exact RequestView.weight_none (h x hx)

/-- A transaction that is woken up stays in its slot. -/
theorem grUpdateGst_requestsHeld (gst : ℚ) :
    grRequestsHeld (grUpdateGst st gst).1 = grRequestsHeld st := by
  unfold grUpdateGst
  split
  · simp only [grRotxOnGstUpdated, grRequestsHeld]
    rw [ptrArraySum_map_same]
    intro id rotx
    unfold grRotxGstUpdateCallback
    split <;> rfl
  · rfl

/-- The weight of an answer, wherever it is sent. -/
theorem RepliesTo.grWeight {k : ClientId c} {lpid : Lpid c} {kind : RequestKind}
    (h : RepliesTo s k lpid) (hs : grAbout (.inl k.server, e) = some (k, kind))
    (hk : grAbout (.inr k, e) = some (k, kind)) :
    (grRequestView c).weight ((grSend lpid e).place s, (grSend lpid e).event) =
      Pi.single (k, kind) 1 := by
  rcases h with ⟨rfl, -⟩ | ⟨rfl, -⟩
  · exact RequestView.weight_some hk
  · exact RequestView.weight_some hs

theorem grUpdateGst_about (gst : ℚ) : ∀ x ∈ (grUpdateGst st gst).2.map fun o => (o.place s, o.event),
    grAbout x = none := by
  intro x hx
  obtain ⟨o, ho, rfl⟩ := List.mem_map.mp hx
  obtain ⟨id, rotx, -, rfl⟩ := grUpdateGst_out ho
  rfl

/-- **Every handler passes requests on.** -/
theorem GrWork.traces (hw : GrWork s st e r) (hformed : GrFormed s st) (hst : GrLinked s st)
    (he : GrRouted (.inl s, e)) :
    ((r.placed s).map (grRequestView c).weight).sum + grRequestsHeld r.state =
      (grRequestView c).weight (.inl s, e) + grRequestsHeld st := by
  have hupdate : ∀ (st : GrServerState c) (gst : ℚ),
      ((grUpdateGst st gst).2.map fun o => (grRequestView c).weight (o.place s, o.event)).sum = 0 := by
    intro st gst
    have habout : ∀ x ∈ (grUpdateGst st gst).2.map fun o => (o.place s, o.event), grAbout x = none :=
      grUpdateGst_about gst
    have hsum := sum_grWeight_other habout
    rwa [List.map_map] at hsum
  cases hw with
  | other he hget hput _ hrotx hnew =>
    rw [sum_grWeight_other fun x hx => grAbout_other (hnew x hx), grWeight_other he, grRequestsHeld,
      grRequestsHeld, hget, hput, hrotx]
  | wake he gst others hstate hplaced hothers =>
    rw [hplaced, List.map_append, List.sum_append, sum_grWeight_other (grUpdateGst_about gst),
      sum_grWeight_other fun x hx => grAbout_other (hothers x hx), hstate, grWeight_other he,
      grUpdateGst_requestsHeld, zero_add]
  | @getForward request cont _ hcont =>
    have hnone : cont.event?.elim 0 (fun e => (grRequestView c).weight (.inl s, e)) = 0 := by
      cases hce : cont.event? with
      | none => rfl
      | some e => exact grWeight_other (x := (.inl s, e)) (hcont e hce)
    rw [Outcome.sum_placed, hnone]
    simp [grWeight, Out.place, Out.event, grAbout]
  | getOpen =>
    simp only [Outcome.sum_placed, grRequestsHeld, ptrArraySum_put, List.map_nil, List.sum_nil,
      Cont.event?, Option.elim_some, grWeight, grAbout, GrGetRequest.state, Option.elim_none]
    abel
  | @getServe request =>
    have hslot : ptrArrayGet (ptrArrayPut request.state st.getStates) (ptrArrayFree st.getStates) =
        some request.state := by
      rw [ptrArrayPut_get, if_pos rfl]
    have hreplies : RepliesTo s request.client request.state.destination := Routed.repliesTo he
    have hsend := hreplies.grWeight (e := .getResponse (grGetAnswer s st request.state)) rfl rfl
    simp only [Outcome.sum_placed, grRequestsHeld, ptrArraySum_set _ hslot, ptrArraySum_put,
      List.map_cons, List.map_nil, List.sum_cons, List.sum_nil, Cont.event?, Option.elim_none,
      hsend]
    simp only [grWeight, grAbout, GrGetRequest.state, Option.elim_some]
    abel
  | getLocked =>
    rw [Outcome.sum_placed, hupdate, grUpdateGst_requestsHeld]
    simp [Cont.event?, grWeight, grAbout]
  | @getUnlocked id getState hget =>
    have hsend := (hst.get id getState hget).grWeight
      (e := .getResponse (grGetAnswer s st getState)) rfl rfl
    simp only [Outcome.sum_placed, grRequestsHeld, ptrArraySum_set _ hget, List.map_cons,
      List.map_nil, List.sum_cons, List.sum_nil, Cont.event?, Option.elim_none, hsend]
    simp only [grWeight, grAbout, Option.elim_none]
    abel
  | getResponse =>
    simp [Outcome.sum_placed, Cont.event?, Out.place, Out.event, grWeight, grAbout]
  | putForward =>
    simp [Outcome.sum_placed, Cont.event?, Out.place, Out.event, grWeight, grAbout]
  | putDefer =>
    simp [Outcome.sum_placed, Cont.event?, Out.place, Out.event, grWeight, grAbout]
  | putOpen =>
    simp only [Outcome.sum_placed, grRequestsHeld, ptrArraySum_put, List.map_nil, List.sum_nil,
      Cont.event?, Option.elim_some, grWeight, grAbout, GrPutRequest.state, Option.elim_none]
    abel
  | @putLocked id putState hput =>
    simp only [Outcome.sum_placed, grPutOutcome, grRequestsHeld, ptrArraySum_set _ hput,
      List.map_nil, List.sum_nil, Cont.event?, Option.elim_some, grWeight, grAbout,
      Option.elim_none]
    abel
  | @putUnlocked id putState stamp hput =>
    have hsend := (hst.put id putState hput).grWeight
      (e := .putResponse (grPutAnswer s putState stamp)) rfl rfl
    have hupdates : ((if stamp.discarded then []
        else grReplicateValue s (grPutUpdate s putState stamp)).map
          fun o : GrOut c => (grRequestView c).weight (o.place s, o.event)).sum = 0 := by
      refine List.sum_eq_zero fun y hy => ?_
      obtain ⟨o, ho, rfl⟩ := List.mem_map.mp hy
      split at ho
      · cases ho
      · obtain ⟨s', -, rfl⟩ := List.mem_map.mp ho
        exact RequestView.weight_none rfl
    simp only [Outcome.sum_placed, grRequestsHeld, ptrArraySum_set _ hput, List.map_cons, hupdates,
      List.sum_cons, Cont.event?, Option.elim_none, hsend]
    simp only [grWeight, grAbout, Option.elim_none]
    abel
  | putResponse =>
    simp [Outcome.sum_placed, Cont.event?, Out.place, Out.event, grWeight, grAbout]
  | @rotxRequest request =>
    by_cases hle : request.dependencyTime ≤ st.gst
    · simp only [Outcome.sum_placed, grRequestsHeld, ptrArraySum_put, hle, decide_true,
        Bool.not_true, Bool.false_eq_true, if_false, List.map_cons, List.map_nil, List.sum_cons,
        List.sum_nil, Cont.event?, Option.elim_none, GrGetRotxRequest.state,
        grSendRotxSnapshotRequest, Out.place, Out.event, grWeight, grAbout, Option.elim_some]
      abel
    · simp only [Outcome.sum_placed, grRequestsHeld, ptrArraySum_put, hle, decide_false,
        Bool.not_false, if_true, List.map_nil, List.sum_nil, Cont.event?, Option.elim_none,
        GrGetRotxRequest.state, grWeight, grAbout, Option.elim_some]
      abel
  | snapshotRequest =>
    simp [Outcome.sum_placed, grRequestsHeld, Cont.event?, grWeight, grAbout]
  | @snapshotLocked id snapshot hget =>
    have hsame : grRequestsHeld (grUpdateGst st snapshot.gst).1 = grRequestsHeld st :=
      grUpdateGst_requestsHeld _
    rw [Outcome.sum_placed, hupdate]
    simp only [grRequestsHeld] at hsame
    simp only [Cont.event?, Option.elim_some, grWeight, grAbout, Option.elim_none, zero_add,
      grRequestsHeld, hsame]
  | @snapshotUnlocked id snapshot hget =>
    have hslices : ((grSliceRequests s id snapshot).map
        fun o => (grRequestView c).weight (o.place s, o.event)).sum = 0 := by
      refine List.sum_eq_zero fun y hy => ?_
      obtain ⟨o, ho, rfl⟩ := List.mem_map.mp hy
      obtain ⟨i, hi, rfl⟩ := List.mem_mapIdx.mp ho
      exact RequestView.weight_none rfl
    rw [Outcome.sum_placed, hslices]
    simp [Cont.event?, grWeight, grAbout]
  | sliceRequest => simp [Outcome.sum_placed, Cont.event?, grWeight, grAbout]
  | sliceLocked | receiveLocked =>
    rw [Outcome.sum_placed, hupdate, grUpdateGst_requestsHeld]
    simp [Cont.event?, grWeight, grAbout]
  | sliceServe hevent =>
    have hnone : grAbout (.inl s, e) = none := by rcases hevent with rfl | ⟨rfl, -⟩ <;> rfl
    rw [grWeight, hnone]
    simp [Outcome.sum_placed, Cont.event?, Out.place, Out.event, grWeight, grAbout]
  | sliceResponse => simp [Outcome.sum_placed, Cont.event?, grWeight, grAbout]
  | @receive _ slice snapshot hevent hget =>
    have hnone : grAbout (.inl s, e) = none := by rcases hevent with rfl | rfl <;> rfl
    rw [grWeight, hnone]
    simp [Outcome.sum_placed, grRequestsHeld, Cont.event?]
  | @receiveLast _ slice snapshot rotx hevent hget hlast hrotx =>
    have hnone : grAbout (.inl s, e) = none := by rcases hevent with rfl | rfl <;> rfl
    rw [grWeight (.inl s, e), hnone]
    simp only [Outcome.sum_placed, grRequestsHeld, ptrArraySum_set _ hrotx, List.map_cons,
      List.map_nil, List.sum_cons, List.sum_nil, Cont.event?, Option.elim_none, Out.place,
      Out.event, grWeight, grAbout, Option.elim_some]
    abel
  | abroad _ hget hclient => exact absurd (hformed.snapshot _ _ hget) hclient

/-! ## 4. What clients do -/

section Clients

variable {k : ClientId c} {t : ℚ} {st st' : GrClientState c}

theorem grClientFinishRequest_some (h : grClientFinishRequest st = some st') :
    st' = { st with requestTime := none } ∧ st.requestTime.isSome = true := by
  unfold grClientFinishRequest at h
  split at h <;> cases h
  exact ⟨rfl, Option.isSome_iff_ne_none.mpr (by assumption)⟩

theorem grClientReceive_request (h : grClientReceive st e = some st') :
    (grRequestView c).Learns k st.requestTime.isSome e st'.requestTime.isSome := by
  cases e with
  | getResponse response =>
    obtain ⟨st₁, hst, rfl⟩ := Option.map_eq_some_iff.mp h
    obtain ⟨rfl, hwaits⟩ := grClientFinishRequest_some hst
    have hkind : (grRequestView c).responseKind (.getResponse response) = some .get := rfl
    exact .answer hkind rfl hwaits
  | putResponse response =>
    obtain ⟨st₁, hst, rfl⟩ := Option.map_eq_some_iff.mp h
    obtain ⟨rfl, hwaits⟩ := grClientFinishRequest_some hst
    have hkind : (grRequestView c).responseKind (.putResponse response) = some .put := rfl
    exact .answer hkind rfl hwaits
  | rotxResponse response =>
    obtain ⟨st₁, hst, rfl⟩ := Option.map_eq_some_iff.mp h
    obtain ⟨rfl, hwaits⟩ := grClientFinishRequest_some hst
    have hkind : (grRequestView c).responseKind (.rotxResponse response) = some .rotx := rfl
    exact .answer hkind rfl hwaits
  | clientTick =>
    cases h
    exact .tick
  | _ => cases h

theorem grClientDecide_request {decision : Decision} {a : GrClientState c × List (GrOut c)}
    (h : grClientDecide k t st decision = some a) :
    (grRequestView c).Sends k st.requestTime.isSome a.1.requestTime.isSome a.2 := by
  have hsend : ∀ {request : GrClientState c → GrEvent c} {kind : RequestKind},
      grClientSend k t st request = some a → (∀ st, (request st).requestKind = some kind) →
      (∀ st, grAbout (.inl k.server, request st) = some (k, kind)) →
        (grRequestView c).Sends k st.requestTime.isSome a.1.requestTime.isSome a.2 := by
    intro request kind h hkind habout
    unfold grClientSend grClientBeginRequest at h
    split at h
    · rename_i hidle
      cases h
      exact .request (by rw [hidle]; rfl) (hkind _) (habout _)
    · cases h
  cases decision with
  | nothing =>
    cases h
    exact .nothing
  | tick delay =>
    simp only [grClientDecide] at h
    split at h <;> cases h
    exact .tick delay
  | get key => exact hsend h (fun _ => rfl) fun _ => rfl
  | put key value => exact hsend h (fun _ => rfl) fun _ => rfl
  | rotx keys => exact hsend h (fun _ => rfl) fun _ => rfl

/-- A client that does not wait can do whatever its workload decides. -/
theorem grClientDecide_isSome {decision : Decision} (hvalid : decision.Valid)
    (hidle : st.requestTime = none) : (grClientDecide k t st decision).isSome := by
  cases decision with
  | nothing => rfl
  | tick delay =>
    have hdelay : 0 ≤ delay := hvalid
    rw [grClientDecide, if_pos hdelay]
    rfl
  | _ => simp [grClientDecide, grClientSend, grClientBeginRequest, hidle]

/-- What a client expects can be received, and it does not wait afterwards. -/
theorem grClientReceive_expected (h : (grRequestView c).Expects st.requestTime.isSome e) :
    ∃ st', grClientReceive st e = some st' ∧ st'.requestTime = none := by
  rcases h with ⟨rfl, hidle⟩ | ⟨hkind, hwaits⟩
  · exact ⟨st, rfl, Option.isSome_eq_false_iff.mp hidle |> Option.isNone_iff_eq_none.mp⟩
  · have hfinish : grClientFinishRequest st = some { st with requestTime := none } :=
      if_neg (Option.isSome_iff_ne_none.mp hwaits)
    cases e with
    | getResponse response => exact ⟨_, congrArg (Option.map _) hfinish, rfl⟩
    | putResponse response => exact ⟨_, congrArg (Option.map _) hfinish, rfl⟩
    | rotxResponse response => exact ⟨_, congrArg (Option.map _) hfinish, rfl⟩
    | _ => cases hkind

theorem grRequestView_lawful (c : Cluster) : (grRequestView c).Lawful (grProgram c) where
  held_nonneg st y := by
    have hsingle : ∀ x : ClientId c × RequestKind,
        (0 : ℤ) ≤ (Pi.single x 1 : ClientId c × RequestKind → ℤ) y := by
      intro x
      rw [Pi.single_apply]
      split <;> decide
    simp only [grRequestView, grRequestsHeld, Pi.add_apply, ptrArraySum_apply]
    refine add_nonneg (add_nonneg ?_ ?_) ?_ <;> exact ptrArraySum_nonneg fun _ _ _ => hsingle _
  tick_request := rfl
  tick_response := rfl
  tick_about _ := rfl
  answer_about {k e kind} h := by
    cases e <;> cases h <;> rfl
  client {k t x st e r} h := by
    simp only [grProgram, grClientProcessEvent] at h
    split at h
    · cases h
    · rename_i st' hst
      exact ⟨_, grClientReceive_request hst, grClientDecide_request h⟩
  enabled {k t x st e} hvalid hexpects := by
    obtain ⟨st', hst, hidle⟩ := grClientReceive_expected hexpects
    simp only [grProgram, grClientProcessEvent, hst]
    exact grClientDecide_isSome hvalid hidle

end Clients

/-! ## 5. Every run -/

section Runs

variable {setup : Setup c (GrEvent c)} {Q : GrAct c → Prop} {M : GrMail c} {h : List (GrAct c)}

theorem grRequestView_about : ∀ x ∈ (grWorld setup).config.mail.events,
    (grRequestView c).about x = none := by
  intro x hx
  rcases Setup.mem_mail hx with ⟨s, rfl, -⟩ | ⟨s, rfl⟩ | ⟨k, rfl⟩ <;> rfl

theorem grRequestView_starts (hclients : (setup.clients.map Prod.snd).Nodup) :
    (grRequestView c).Starts (grWorld setup).config.mail where
  held _ := rfl
  about := grRequestView_about
  waits _ := rfl
  woken k := by
    rw [grWorld, Setup.woken (grRequestView c) setup _ _ _ _ _ _ rfl]
    exact Multiset.nodup_iff_count_le_one.mp (Multiset.coe_nodup.mpr hclients) k
  clients k e hx := by
    rcases Setup.mem_mail hx with ⟨s, hx, -⟩ | ⟨s, hx⟩ | ⟨k, hx⟩ <;> cases hx
    rfl

theorem gr_serves (hr : Mail.Run (grProgram c) Q (grWorld setup).config.mail M h) {t : ℚ}
    (hev : (.inl s, e) ∈ M.events) (hserve : grServerProcessEvent s t (M.server s) e = some r) :
    (grRequestView c).Serves s (M.server s) e r ∧ ∀ o ∈ r.outs, (grRequestView c).MaySend s o := by
  have hr' := grServerProcessEvent_some hserve
  have hformed : GrFormed s { M.server s with now := t, clock := c.clock s t } :=
    ((gr_formed hr).1 s).of_eq rfl rfl rfl rfl
  have hlinked : GrLinked s { M.server s with now := t, clock := c.clock s t } :=
    ((gr_routed hr).1 s).of_eq rfl rfl rfl
  have hrouted := (gr_routed hr).2 _ hev
  have hsends := grProcessEvent_sends hr' hformed hlinked hrouted
  exact ⟨⟨(grProcessEvent_work hr').traces hformed hlinked hrouted,
    (grRequestView_lawful c).answers hsends⟩, hsends⟩

/-- There is one trace of what is outstanding, whoever is set up. -/
theorem gr_traced (hr : Mail.Run (grProgram c) Q (grWorld setup).config.mail M h) :
    (M.events.map (grRequestView c).weight).sum + ∑ s, (grRequestView c).held (M.server s) =
      (grRequestView c).owed h :=
  hr.trace (grRequestView_lawful c) (fun _ => rfl) grRequestView_about (fun _ => rfl)
    fun hrun hmem hserve => (gr_serves hrun hmem hserve).1

/-- **The requests and answers of `gr`**, in every run in which every client is set up once. -/
theorem gr_disciplined (hclients : (setup.clients.map Prod.snd).Nodup)
    (hr : Mail.Run (grProgram c) Q (grWorld setup).config.mail M h) :
    (grRequestView c).Disciplined (grProgram c) M h := by
  have hkept := hr.requests_kept (grRequestView_lawful c) (grRequestView_starts hclients)
    fun hrun hev hserve => (gr_serves hrun hev hserve).1
  have hrouted := (gr_routed hr).2
  refine hkept.disciplined (grRequestView_lawful c) (fun k e hev k' hk' => ?_)
    (fun s e key proxy hev hrouting hkey => ?_)
    fun s e t r hev hserve o ho => ((gr_serves hr hev hserve).2 o ho).travels
  · have hk := hrouted _ hev
    cases e <;> cases hk' <;> exact hk
  · have hroute := hrouted _ hev
    cases e with
    | getRequest request =>
      cases hrouting
      exact Routed.proxy_eq_none hroute hkey
    | putRequest request =>
      cases hrouting
      exact Routed.proxy_eq_none hroute hkey
    | _ => cases hrouting

end Runs

end CCSim
