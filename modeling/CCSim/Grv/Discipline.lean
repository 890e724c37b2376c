/-
# Requests and answers of `grv`

The counterpart of `Gr/Discipline.lean`.  A GET or a transaction waits for a lock in the message
itself, so that only a PUT and a transaction that has been split into slices are in slots
(`grvRequestView`).  That handlers pass requests on is the ledger of `Grv/Requests.lean`.
-/
import CCSim.RequestView
import CCSim.Grv.Requests

namespace CCSim

variable {c : Cluster} {s : ServerId c} {st : GrvServerState c} {e : GrvEvent c} {r : GrvOutcome c}

/-! ## 1. The view -/

/-- The key and the proxy of a GET or a PUT. -/
def GrvEvent.routing : GrvEvent c → Option (Key × Option (ServerId c))
  | .getRequest request => some (request.key, request.proxy)
  | .putRequest request => some (request.key, request.proxy)
  | _ => none

/-- The client that an answer names; the answer to a transaction names none. -/
def GrvEvent.names : GrvEvent c → Option (ClientId c)
  | .getResponse response => some response.client
  | .putResponse response => some response.client
  | _ => none

/-- Whose request an event is a trace of.  An answer that has reached a client is about this
client. -/
def grvAbout : (ServerId c ⊕ ClientId c) × GrvEvent c → Option (ClientId c × RequestKind)
  | (_, .getRequest request) => some (request.client, .get)
  | (_, .getRequestLocked request) => some (request.client, .get)
  | (_, .getRequestUnlocked request) => some (request.client, .get)
  | (.inl _, .getResponse response) => some (response.client, .get)
  | (.inr k, .getResponse _) => some (k, .get)
  | (_, .putRequest request) => some (request.client, .put)
  | (.inl _, .putResponse response) => some (response.client, .put)
  | (.inr k, .putResponse _) => some (k, .put)
  | (_, .rotxRequest request) => some (request.client, .rotx)
  | (_, .rotxRequestLocked request) => some (request.client, .rotx)
  | (_, .rotxRequestUnlocked request) => some (request.client, .rotx)
  | (.inr k, .rotxResponse _) => some (k, .rotx)
  | _ => none

/-- The requests in the slots of a server. -/
def grvRequestsHeld (st : GrvServerState c) : ClientId c × RequestKind → ℤ :=
  ptrArraySum (fun _ putState => Pi.single (putState.client, .put) 1) st.putStates +
    ptrArraySum (fun _ rotx => Pi.single (rotx.client, .rotx) 1) st.rotxStates

def grvRequestView (c : Cluster) : RequestView c (GrvEvent c) (GrvServerState c) (GrvClientState c)
    where
  requestKind := GrvEvent.requestKind
  responseKind := GrvEvent.responseKind
  about := grvAbout
  held := grvRequestsHeld
  waits st := st.requestTime.isSome
  tick := .clientTick
  routing := GrvEvent.routing
  names := GrvEvent.names

/-! ## 2. What servers send -/

theorem RepliesTo.grv_sends {k : ClientId c} {lpid : Lpid c} (h : RepliesTo s k lpid)
    (he : e.responseKind.isSome) : (grvRequestView c).MaySend s (grvSend lpid e) := by
  rcases h with ⟨rfl, rfl⟩ | ⟨rfl, hs⟩
  · exact .client rfl he
  · exact .replica hs.symm

theorem grvSendGst_sends (rootGst : GrvGstFromRoot c) :
    ∀ o ∈ grvSendGst s rootGst, (grvRequestView c).MaySend s o := by
  intro o ho
  obtain ⟨p, -, rfl⟩ := List.mem_map.mp ho
  exact .replica rfl

theorem grvProcessGetRequestUnlocked_sends {request : GrvGetRequest c}
    (h : grvProcessGetRequestUnlocked s st request = some r)
    (hrouted : Routed s request.client request.proxy request.key) :
    ∀ o ∈ r.outs, (grvRequestView c).MaySend s o := by
  unfold grvProcessGetRequestUnlocked at h
  split at h
  · cases h
    exact List.forall_mem_singleton.mpr (hrouted.repliesTo.grv_sends rfl)
  · cases h

theorem grvProcessSliceRequestUnlocked_sends {request : GrvSliceRequest c}
    (h : grvProcessSliceRequestUnlocked s st request = some r) (hfrom : request.fromLpid.1 = s.1) :
    ∀ o ∈ r.outs, (grvRequestView c).MaySend s o := by
  unfold grvProcessSliceRequestUnlocked at h
  split at h
  · cases h
    exact List.forall_mem_singleton.mpr (.replica hfrom)
  · cases h

theorem grvProcessRotxRequestUnlocked_sends {request : GrvRotxRequest c}
    (h : grvProcessRotxRequestUnlocked s st request = some r) :
    ∀ o ∈ r.outs, (grvRequestView c).MaySend s o := by
  cases h
  intro o ho
  obtain ⟨p, -, hp⟩ := List.mem_filterMap.mp ho
  split at hp
  · cases hp
  · cases hp
    exact .replica rfl

theorem grvProcessClockTickUnlocked_sends {sendTime : Bool}
    (h : grvProcessClockTickUnlocked s st sendTime = some r) :
    ∀ o ∈ r.outs, (grvRequestView c).MaySend s o := by
  cases h
  intro o ho
  rcases List.mem_append.mp ho with ho | ho
  · obtain ⟨s', hs', rfl⟩ := List.mem_map.mp ho
    exact .partition (mem_otherReplicas.mp hs').2
  · rw [List.mem_singleton.mp ho]
    exact .self

/-- **Messages stay on the links, and clients are sent answers.** -/
theorem grvProcessEvent_sends (h : grvProcessEvent s st e = some r) (hst : GrvFormed s st)
    (haddressed : GrvAddressed (.inl s, e)) : ∀ o ∈ r.outs, (grvRequestView c).MaySend s o := by
  cases e with
  | rotxResponse | clientTick => cases h
  | getRequest request =>
    simp only [grvProcessEvent, grvProcessGetRequest] at h
    split at h
    · split at h
      · cases h
      · cases h
        exact List.forall_mem_singleton.mpr (.replica rfl)
    · split at h
      · cases h
        exact List.forall_mem_nil _
      · exact grvProcessGetRequestUnlocked_sends h haddressed
  | getRequestUnlocked request => exact grvProcessGetRequestUnlocked_sends h haddressed
  | forwardedGetRequestLocked | heartbeatLocked | getRequestLocked | rotxRequestLocked
  | sliceRequestLocked | lstFromLeafRootLocked | clockTickLocked | heartbeat | gstFromRootLocked =>
    cases h
    exact List.forall_mem_nil _
  | getResponse response | putResponse response =>
    cases h
    exact List.forall_mem_singleton.mpr (.client haddressed rfl)
  | putRequest request =>
    simp only [grvProcessEvent, grvProcessPutRequest] at h
    split at h
    · split at h <;> cases h
      exact List.forall_mem_singleton.mpr (.replica rfl)
    · split at h <;> cases h
      · exact List.forall_mem_singleton.mpr .self
      · exact List.forall_mem_nil _
  | putRequestLocked id =>
    simp only [grvProcessEvent, grvProcessPutRequestLocked] at h
    split at h
    · cases h
    · split at h <;> cases h
      exact List.forall_mem_nil _
  | putRequestUnlocked id =>
    simp only [grvProcessEvent, grvProcessPutRequestUnlocked] at h
    split at h
    · cases h
    · rename_i putState hput
      split at h <;> cases h
      refine List.forall_mem_cons.mpr ⟨(hst.put id putState hput).grv_sends rfl, fun o ho => ?_⟩
      split at ho
      · cases ho
      · obtain ⟨s', hs', rfl⟩ := List.mem_map.mp ho
        exact .partition (mem_otherReplicas.mp hs').2
  | replicaUpdate update | replicaUpdateVvUnlocked update =>
    obtain ⟨a, -, rfl⟩ := Option.map_eq_some_iff.mp h
    exact List.forall_mem_nil _
  | replicaUpdateVvLocked update =>
    simp only [grvProcessEvent, grvProcessReplicaUpdateVvLocked] at h
    split at h <;> cases h
    exact List.forall_mem_nil _
  | lstFromLeaf leafLst =>
    simp only [grvProcessEvent, grvProcessLstFromLeaf, grvSendLstToParent] at h
    split at h
    · cases h
    · split at h
      · split at h
        · cases h
          exact List.forall_mem_nil _
        · cases h
          exact List.forall_mem_singleton.mpr (.replica rfl)
      · cases h
        exact List.forall_mem_nil _
  | lstFromLeafRootUnlocked | gstFromRoot =>
    cases h
    exact grvSendGst_sends _
  | startGstComputation =>
    simp only [grvProcessEvent, grvProcessStartGstComputation] at h
    split at h
    · split at h <;> cases h
      · exact List.forall_mem_singleton.mpr .self
      · exact List.forall_mem_singleton.mpr (.replica rfl)
    · cases h
  | gstFromRootUnlocked =>
    cases h
    intro o ho
    dsimp only at ho
    split at ho
    · rw [List.mem_singleton.mp ho]
      exact .self
    · cases ho
  | sliceRequest request =>
    simp only [grvProcessEvent, grvProcessSliceRequest] at h
    split at h
    · cases h
      exact List.forall_mem_singleton.mpr .self
    · split at h
      · cases h
        exact List.forall_mem_nil _
      · obtain ⟨r', hr', rfl⟩ := Option.map_eq_some_iff.mp h
        have hsends : ∀ o ∈ r'.outs, (grvRequestView c).MaySend s o :=
          grvProcessSliceRequestUnlocked_sends hr' haddressed
        exact hsends
  | sliceRequestUnlocked request => exact grvProcessSliceRequestUnlocked_sends h haddressed
  | sliceResponse slice =>
    simp only [grvProcessEvent, grvProcessSliceResponse] at h
    split at h
    · cases h
    · rename_i rotx hget
      split at h <;> cases h
      · refine List.forall_mem_singleton.mpr (.client ?_ rfl)
        rw [grvReceiveSlice_client]
        exact hst.rotx _ rotx hget
      · exact List.forall_mem_nil _
  | rotxRequest request =>
    simp only [grvProcessEvent, grvProcessRotxRequest] at h
    split at h
    · cases h
      exact List.forall_mem_nil _
    · exact grvProcessRotxRequestUnlocked_sends h
  | rotxRequestUnlocked request => exact grvProcessRotxRequestUnlocked_sends h
  | clockTick =>
    simp only [grvProcessEvent, grvProcessClockTick] at h
    split at h
    · cases h
      exact List.forall_mem_nil _
    · exact grvProcessClockTickUnlocked_sends h
  | clockTickUnlocked sendTime => exact grvProcessClockTickUnlocked_sends h

/-! ## 3. What servers do -/

/-- The weights are the references to clients of the ledger. -/
theorem grvWeight (x : (ServerId c ⊕ ClientId c) × GrvEvent c) (k : ClientId c)
    (kind : RequestKind) : (grvRequestView c).weight x (k, kind) = grvRefs x (.client k kind) := by
  have hone : ∀ k' kind', (if some (k', kind') = some (k, kind) then (1 : ℤ) else 0) =
      (GrvRef.client k' kind').one (.client k kind) := by
    intro k' kind'
    simp only [GrvRef.one, Pi.single_apply, Option.some.injEq, Prod.mk.injEq, GrvRef.client.injEq,
      eq_comm]
  have hput : ∀ s id, (0 : ℤ) = (GrvRef.put s id).one (.client k kind) := by
    intro s id
    rw [GrvRef.one_of_ne (by rintro ⟨⟩)]
  obtain ⟨p, e⟩ := x
  cases e <;> cases p <;> first | exact hone _ _ | exact hput _ _ | rfl

theorem grvRequestsHeld_eq (s : ServerId c) (st : GrvServerState c) (k : ClientId c)
    (kind : RequestKind) : grvRequestsHeld st (k, kind) = grvHeld s st (.client k kind) := by
  have hone : ∀ k' kind', (Pi.single (k', kind') 1 : ClientId c × RequestKind → ℤ) (k, kind) =
      (GrvRef.client k' kind').one (.client k kind) := by
    intro k' kind'
    simp only [GrvRef.one, Pi.single_apply, Prod.mk.injEq, GrvRef.client.injEq]
  simp only [grvHeld_client, grvRequestsHeld, Pi.add_apply, ptrArraySum_apply, hone]

/-- **Every handler passes requests on.** -/
theorem GrvWork.traces (hw : GrvWork s st e r) (hst : GrvFormed s st)
    (he : GrvAddressed (.inl s, e)) :
    ((r.placed s).map (grvRequestView c).weight).sum + grvRequestsHeld r.state =
      (grvRequestView c).weight (.inl s, e) + grvRequestsHeld st := by
  have hbooks := hw.books hst he
  funext ⟨k, kind⟩
  have hat := congrFun hbooks (.client k kind)
  rw [Pi.add_apply, Pi.add_apply, Pi.list_sum_apply, List.map_map] at hat ⊢
  rw [grvWeight, grvRequestsHeld_eq s, grvRequestsHeld_eq s, ← hat]
  refine congrArg (List.sum · + _) (List.map_congr_left fun x _ => ?_)
  exact grvWeight x k kind

/-! ## 4. What clients do -/

section Clients

variable {k : ClientId c} {t : ℚ} {st st' : GrvClientState c}

theorem grvClientFinishRequest_some (h : grvClientFinishRequest st = some st') :
    st' = { st with requestTime := none } ∧ st.requestTime.isSome = true := by
  unfold grvClientFinishRequest at h
  split at h <;> cases h
  exact ⟨rfl, Option.isSome_iff_ne_none.mpr (by assumption)⟩

theorem grvClientReceive_request (h : grvClientReceive st e = some st') :
    (grvRequestView c).Learns k st.requestTime.isSome e st'.requestTime.isSome := by
  cases e with
  | getResponse response =>
    obtain ⟨st₁, hst, rfl⟩ := Option.map_eq_some_iff.mp h
    obtain ⟨rfl, hwaits⟩ := grvClientFinishRequest_some hst
    have hkind : (grvRequestView c).responseKind (.getResponse response) = some .get := rfl
    exact .answer hkind rfl hwaits
  | putResponse response =>
    obtain ⟨st₁, hst, rfl⟩ := Option.map_eq_some_iff.mp h
    obtain ⟨rfl, hwaits⟩ := grvClientFinishRequest_some hst
    have hkind : (grvRequestView c).responseKind (.putResponse response) = some .put := rfl
    exact .answer hkind rfl hwaits
  | rotxResponse response =>
    obtain ⟨st₁, hst, rfl⟩ := Option.map_eq_some_iff.mp h
    obtain ⟨rfl, hwaits⟩ := grvClientFinishRequest_some hst
    have hkind : (grvRequestView c).responseKind (.rotxResponse response) = some .rotx := rfl
    exact .answer hkind rfl hwaits
  | clientTick =>
    cases h
    exact .tick
  | _ => cases h

theorem grvClientDecide_request {decision : Decision} {a : GrvClientState c × List (GrvOut c)}
    (h : grvClientDecide k t st decision = some a) :
    (grvRequestView c).Sends k st.requestTime.isSome a.1.requestTime.isSome a.2 := by
  have hsend : ∀ {request : GrvClientState c → GrvEvent c} {kind : RequestKind},
      grvClientSend k t st request = some a → (∀ st, (request st).requestKind = some kind) →
      (∀ st, grvAbout (.inl k.server, request st) = some (k, kind)) →
        (grvRequestView c).Sends k st.requestTime.isSome a.1.requestTime.isSome a.2 := by
    intro request kind h hkind habout
    unfold grvClientSend grvClientBeginRequest at h
    split at h
    · rename_i hidle
      cases h
      exact .request (by rw [hidle]; rfl) (hkind _) (habout _)
    · cases h
  cases decision with
  | nothing =>
    cases h
    exact .nothing
  | tick delay =>
    simp only [grvClientDecide] at h
    split at h <;> cases h
    exact .tick delay
  | get key => exact hsend h (fun _ => rfl) fun _ => rfl
  | put key value => exact hsend h (fun _ => rfl) fun _ => rfl
  | rotx keys => exact hsend h (fun _ => rfl) fun _ => rfl

/-- A client that does not wait can do whatever its workload decides. -/
theorem grvClientDecide_isSome {decision : Decision} (hvalid : decision.Valid)
    (hidle : st.requestTime = none) : (grvClientDecide k t st decision).isSome := by
  cases decision with
  | nothing => rfl
  | tick delay =>
    have hdelay : 0 ≤ delay := hvalid
    rw [grvClientDecide, if_pos hdelay]
    rfl
  | _ => simp [grvClientDecide, grvClientSend, grvClientBeginRequest, hidle]

/-- What a client expects can be received, and it does not wait afterwards. -/
theorem grvClientReceive_expected (h : (grvRequestView c).Expects st.requestTime.isSome e) :
    ∃ st', grvClientReceive st e = some st' ∧ st'.requestTime = none := by
  rcases h with ⟨rfl, hidle⟩ | ⟨hkind, hwaits⟩
  · exact ⟨st, rfl, Option.isSome_eq_false_iff.mp hidle |> Option.isNone_iff_eq_none.mp⟩
  · have hfinish : grvClientFinishRequest st = some { st with requestTime := none } :=
      if_neg (Option.isSome_iff_ne_none.mp hwaits)
    cases e with
    | getResponse response => exact ⟨_, congrArg (Option.map _) hfinish, rfl⟩
    | putResponse response => exact ⟨_, congrArg (Option.map _) hfinish, rfl⟩
    | rotxResponse response => exact ⟨_, congrArg (Option.map _) hfinish, rfl⟩
    | _ => cases hkind

theorem grvRequestView_lawful (c : Cluster) : (grvRequestView c).Lawful (grvProgram c) where
  held_nonneg st y := by
    have hsingle : ∀ x : ClientId c × RequestKind,
        (0 : ℤ) ≤ (Pi.single x 1 : ClientId c × RequestKind → ℤ) y := by
      intro x
      rw [Pi.single_apply]
      split <;> decide
    simp only [grvRequestView, grvRequestsHeld, Pi.add_apply, ptrArraySum_apply]
    refine add_nonneg ?_ ?_ <;> exact ptrArraySum_nonneg fun _ _ _ => hsingle _
  tick_request := rfl
  tick_response := rfl
  tick_about _ := rfl
  answer_about {k e kind} h := by
    cases e <;> cases h <;> rfl
  client {k t x st e r} h := by
    simp only [grvProgram, grvClientProcessEvent] at h
    split at h
    · cases h
    · rename_i st' hst
      exact ⟨_, grvClientReceive_request hst, grvClientDecide_request h⟩
  enabled {k t x st e} hvalid hexpects := by
    obtain ⟨st', hst, hidle⟩ := grvClientReceive_expected hexpects
    simp only [grvProgram, grvClientProcessEvent, hst]
    exact grvClientDecide_isSome hvalid hidle

end Clients

/-! ## 5. Every run -/

section Runs

variable {setup : Setup c (GrvEvent c)} {Q : GrvAct c → Prop} {M : GrvMail c} {h : List (GrvAct c)}

theorem grvRequestView_about : ∀ x ∈ (grvWorld setup).config.mail.events,
    (grvRequestView c).about x = none := by
  intro x hx
  rcases Setup.mem_mail hx with ⟨s, rfl, -⟩ | ⟨s, rfl⟩ | ⟨k, rfl⟩ <;> rfl

theorem grvRequestView_starts (hclients : (setup.clients.map Prod.snd).Nodup) :
    (grvRequestView c).Starts (grvWorld setup).config.mail where
  held _ := rfl
  about := grvRequestView_about
  waits _ := rfl
  woken k := by
    rw [grvWorld, Setup.woken (grvRequestView c) setup _ _ _ _ _ _ rfl]
    exact Multiset.nodup_iff_count_le_one.mp (Multiset.coe_nodup.mpr hclients) k
  clients k e hx := by
    rcases Setup.mem_mail hx with ⟨s, hx, -⟩ | ⟨s, hx⟩ | ⟨k, hx⟩ <;> cases hx
    rfl

theorem grv_serves (hr : Mail.Run (grvProgram c) Q (grvWorld setup).config.mail M h) {t : ℚ}
    (hev : (.inl s, e) ∈ M.events) (hserve : grvServerProcessEvent s t (M.server s) e = some r) :
    (grvRequestView c).Serves s (M.server s) e r ∧ ∀ o ∈ r.outs, (grvRequestView c).MaySend s o := by
  have hr' := grvServerProcessEvent_some hserve
  have hformed : GrvFormed s { M.server s with now := t, clock := c.clock s t } :=
    ((grv_formed hr).1 s).of_eq rfl rfl
  have haddressed := (grv_formed hr).2 _ hev
  have hsends := grvProcessEvent_sends hr' hformed haddressed
  exact ⟨⟨(grvProcessEvent_work hr').traces hformed haddressed,
    (grvRequestView_lawful c).answers hsends⟩, hsends⟩

/-- There is one trace of what is outstanding, whoever is set up. -/
theorem grv_traced (hr : Mail.Run (grvProgram c) Q (grvWorld setup).config.mail M h) :
    (M.events.map (grvRequestView c).weight).sum + ∑ s, (grvRequestView c).held (M.server s) =
      (grvRequestView c).owed h :=
  hr.trace (grvRequestView_lawful c) (fun _ => rfl) grvRequestView_about (fun _ => rfl)
    fun hrun hmem hserve => (grv_serves hrun hmem hserve).1

/-- **The requests and answers of `grv`**, in every run in which every client is set up once. -/
theorem grv_disciplined (hclients : (setup.clients.map Prod.snd).Nodup)
    (hr : Mail.Run (grvProgram c) Q (grvWorld setup).config.mail M h) :
    (grvRequestView c).Disciplined (grvProgram c) M h := by
  have hkept := hr.requests_kept (grvRequestView_lawful c) (grvRequestView_starts hclients)
    fun hrun hev hserve => (grv_serves hrun hev hserve).1
  have haddressed := (grv_formed hr).2
  refine hkept.disciplined (grvRequestView_lawful c) (fun k e hev k' hk' => ?_)
    (fun s e key proxy hev hrouting hkey => ?_)
    fun s e t r hev hserve o ho => ((grv_serves hr hev hserve).2 o ho).travels
  · have hk := haddressed _ hev
    cases e <;> cases hk' <;> exact hk
  · have hroute := haddressed _ hev
    cases e with
    | getRequest request =>
      cases hrouting
      exact Routed.proxy_eq_none hroute hkey
    | putRequest request =>
      cases hrouting
      exact Routed.proxy_eq_none hroute hkey
    | _ => cases hrouting

end Runs

end CCSim
