/-
# Where the global stable vectors of `grv` come from

A stable vector is computed by the root of the aggregation tree, or by the only partition there is,
and from there it is only passed on: to the children, with the answers to the clients, with their
next requests and with the requests for slices.  Handlers copy it, or take the larger entries of two
of them (`grvProcessEvent_carries`).  So every one of them, wherever it is, has been a promise of all
version vectors of its data center from the beginning (`grv_promised`).
-/
import CCSim.StableTimes
import CCSim.Rounds

namespace CCSim

variable {c : Cluster} {s : ServerId c} {st : GrvServerState c} {e : GrvEvent c} {r : GrvOutcome c}

/-! ## 1. What is carried -/

/-- The `gst_vector` that a message or an event carries. -/
def GrvEvent.gstVector? : GrvEvent c → Option (TimeVector c)
  | .getRequest request => some request.gstVector
  | .forwardedGetRequestLocked request => some request.gstVector
  | .getRequestLocked request => some request.gstVector
  | .getRequestUnlocked request => some request.gstVector
  | .getResponse response => some response.gstVector
  | .gstFromRoot rootGst => some rootGst.gstVector
  | .gstFromRootLocked rootGst => some rootGst.gstVector
  | .sliceRequest request => some request.gstVector
  | .sliceRequestLocked request => some request.gstVector
  | .sliceRequestUnlocked request => some request.gstVector
  | .rotxRequest request => some request.gstVector
  | .rotxRequestLocked request => some request.gstVector
  | .rotxRequestUnlocked request => some request.gstVector
  | _ => none

/-- What is true in the data center of a process of the vector that an event for it carries. -/
def GrvCarries (good : Replica c → TimeVector c → Prop)
    (x : (ServerId c ⊕ ClientId c) × GrvEvent c) : Prop :=
  ∀ v ∈ x.2.gstVector?, good (centerOf x.1) v

variable {good : Replica c → TimeVector c → Prop}

theorem grvCarries_none {x : (ServerId c ⊕ ClientId c) × GrvEvent c} (h : x.2.gstVector? = none) :
    GrvCarries good x := by
  intro v hv
  rw [h] at hv
  cases hv

theorem grvCarries_some {x : (ServerId c ⊕ ClientId c) × GrvEvent c} {v : TimeVector c}
    (h : x.2.gstVector? = some v) (hv : good (centerOf x.1) v) : GrvCarries good x := by
  intro w hw
  rw [h] at hw
  cases hw
  exact hv

/-- An answer stays in the data center. -/
theorem RepliesTo.center {k : ClientId c} {lpid : Lpid c} {e : GrvEvent c}
    (h : RepliesTo s k lpid) : centerOf ((grvSend lpid e).place s) = s.1 := by
  rcases h with ⟨rfl, hs⟩ | ⟨rfl, hs⟩
  · rw [hs]
    rfl
  · exact hs.symm

theorem grvSendGst_carries {rootGst : GrvGstFromRoot c} (h : good s.1 rootGst.gstVector) :
    ∀ o ∈ grvSendGst s rootGst, GrvCarries good (o.place s, o.event) := by
  intro o ho
  obtain ⟨p, -, rfl⟩ := List.mem_map.mp ho
  exact grvCarries_some rfl h

theorem grvProcessGetRequestUnlocked_carries {request : GrvGetRequest c}
    (h : grvProcessGetRequestUnlocked s st request = some r)
    (hrouted : Routed s request.client request.proxy request.key) (hst : good s.1 st.gstVector) :
    ∀ x ∈ r.placed s, GrvCarries good x := by
  unfold grvProcessGetRequestUnlocked at h
  split at h
  · cases h
    refine Outcome.forall_placed (List.forall_mem_singleton.mpr ?_) (by rintro _ ⟨⟩)
    have hcenter := hrouted.repliesTo.center (e := .getResponse (grvGetAnswer s st request))
    refine grvCarries_some (v := st.gstVector) ?_ (by rw [hcenter]; exact hst)
    cases replyTo request.client request.proxy <;> rfl
  · cases h

theorem grvProcessSliceRequestUnlocked_carries {request : GrvSliceRequest c}
    (h : grvProcessSliceRequestUnlocked s st request = some r) :
    ∀ x ∈ r.placed s, GrvCarries good x := by
  unfold grvProcessSliceRequestUnlocked at h
  split at h
  · cases h
    exact Outcome.forall_placed (List.forall_mem_singleton.mpr (grvCarries_none rfl))
      (by rintro _ ⟨⟩)
  · cases h

theorem grvProcessRotxRequestUnlocked_carries {request : GrvRotxRequest c}
    (h : grvProcessRotxRequestUnlocked s st request = some r) (hst : good s.1 st.gstVector) :
    ∀ x ∈ r.placed s, GrvCarries good x := by
  cases h
  refine Outcome.forall_placed (fun o ho => ?_) (by rintro _ ⟨⟩)
  obtain ⟨p, -, hp⟩ := List.mem_filterMap.mp ho
  split at hp
  · cases hp
  · cases hp
    exact grvCarries_some rfl hst

theorem grvProcessClockTickUnlocked_carries {sendTime : Bool}
    (h : grvProcessClockTickUnlocked s st sendTime = some r) :
    ∀ x ∈ r.placed s, GrvCarries good x := by
  cases h
  refine Outcome.forall_placed (fun o ho => ?_) (by rintro _ ⟨⟩)
  rcases List.mem_append.mp ho with ho | ho
  · obtain ⟨_, -, rfl⟩ := List.mem_map.mp ho
    exact grvCarries_none rfl
  · rw [List.mem_singleton.mp ho]
    exact grvCarries_none rfl

theorem grvReplicaUpdateOutcome_carries (st : GrvServerState c) (source : Replica c)
    (a : List (GrvReplicaUpdate c) × Option (GrvReplicaUpdate c)) :
    ∀ x ∈ (grvReplicaUpdateOutcome st source a).placed s, GrvCarries good x := by
  refine Outcome.forall_placed (List.forall_mem_nil _) fun e he => ?_
  obtain ⟨queue, n⟩ := a
  cases n with
  | none => cases he
  | some update =>
    cases he
    exact grvCarries_none rfl

/-- **Handlers pass vectors on.**  The vector of what a handler leaves behind is the one of the event,
or the one of the server. -/
theorem grvProcessEvent_carries (h : grvProcessEvent s st e = some r)
    (hrouted : GrvAddressed (.inl s, e)) (hst : good s.1 st.gstVector)
    (he : GrvCarries good (.inl s, e)) : ∀ x ∈ r.placed s, GrvCarries good x := by
  -- a handler that leaves one event behind, without a vector or with the one that it got
  have hnone : ∀ {o : GrvOut c} {st : GrvServerState c} {noTime : Bool}, o.event.gstVector? = none →
      ∀ x ∈ ({ state := st, outs := [o], noTime := noTime } : GrvOutcome c).placed s,
        GrvCarries good x :=
    fun ho => Outcome.forall_placed (List.forall_mem_singleton.mpr (grvCarries_none ho))
      (by rintro _ ⟨⟩)
  have hnext : ∀ {cont : Cont (GrvEvent c)} {st : GrvServerState c} {noTime : Bool},
      (∀ e' ∈ cont.event?, GrvCarries good (.inl s, e')) →
      ∀ x ∈ ({ state := st, noTime := noTime, cont := cont } : GrvOutcome c).placed s,
        GrvCarries good x :=
    fun hcont => Outcome.forall_placed (List.forall_mem_nil _) hcont
  cases e with
  | rotxResponse | clientTick => cases h
  | getRequest request =>
    simp only [grvProcessEvent, grvProcessGetRequest] at h
    split at h
    · split at h
      · cases h
      · cases h
        refine Outcome.forall_placed (List.forall_mem_singleton.mpr ?_) fun e' he' => ?_
        · exact grvCarries_some rfl (he _ rfl)
        · split at he' <;> cases he'
          exact grvCarries_some rfl (he _ rfl)
    · split at h
      · cases h
        exact hnext (by rintro _ ⟨⟩; exact grvCarries_some rfl (he _ rfl))
      · exact grvProcessGetRequestUnlocked_carries h hrouted hst
  | forwardedGetRequestLocked request | heartbeatLocked heartbeat =>
    cases h
    exact hnext (by rintro _ ⟨⟩)
  | getRequestLocked request | rotxRequestLocked request | sliceRequestLocked request =>
    cases h
    exact hnext (by rintro _ ⟨⟩; exact grvCarries_some rfl (he _ rfl))
  | getRequestUnlocked request => exact grvProcessGetRequestUnlocked_carries h hrouted hst
  | getResponse response =>
    cases h
    have hcenter : response.client.server = s := hrouted
    refine Outcome.forall_placed (List.forall_mem_singleton.mpr ?_) (by rintro _ ⟨⟩)
    refine grvCarries_some rfl ?_
    have hgood := he response.gstVector rfl
    rwa [← hcenter] at hgood
  | putRequest request =>
    simp only [grvProcessEvent, grvProcessPutRequest] at h
    split at h
    · split at h <;> cases h
      exact hnone rfl
    · split at h <;> cases h
      · exact hnone rfl
      · exact hnext (by rintro _ ⟨⟩; exact grvCarries_none rfl)
  | putRequestLocked id =>
    simp only [grvProcessEvent, grvProcessPutRequestLocked] at h
    split at h
    · cases h
    · split at h <;> cases h
      exact hnext (by rintro _ ⟨⟩; exact grvCarries_none rfl)
  | putRequestUnlocked id =>
    simp only [grvProcessEvent, grvProcessPutRequestUnlocked] at h
    split at h
    · cases h
    · split at h <;> cases h
      refine Outcome.forall_placed (fun o ho => ?_) (by rintro _ ⟨⟩)
      rcases List.mem_cons.mp ho with rfl | ho
      · refine grvCarries_none ?_
        rename_i putState _ _ _ _
        cases putState.destination <;> rfl
      · split at ho
        · cases ho
        · obtain ⟨_, -, rfl⟩ := List.mem_map.mp ho
          exact grvCarries_none rfl
  | putResponse response =>
    cases h
    exact hnone rfl
  | replicaUpdate update =>
    obtain ⟨a, -, rfl⟩ := Option.map_eq_some_iff.mp h
    exact grvReplicaUpdateOutcome_carries st update.sourceReplica a
  | replicaUpdateVvUnlocked update =>
    obtain ⟨a, -, rfl⟩ := Option.map_eq_some_iff.mp h
    exact grvReplicaUpdateOutcome_carries st update.sourceReplica a
  | replicaUpdateVvLocked update =>
    simp only [grvProcessEvent, grvProcessReplicaUpdateVvLocked] at h
    split at h <;> cases h
    exact hnext (by rintro _ ⟨⟩; exact grvCarries_none rfl)
  | lstFromLeaf leafLst =>
    simp only [grvProcessEvent, grvProcessLstFromLeaf, grvSendLstToParent] at h
    split at h
    · cases h
    · split at h
      · split at h
        · cases h
          exact hnext (by rintro _ ⟨⟩; exact grvCarries_none rfl)
        · cases h
          exact hnone rfl
      · cases h
        exact hnext (by rintro _ ⟨⟩)
  | lstFromLeafRootLocked | clockTickLocked | heartbeat heartbeat =>
    cases h
    exact hnext (by rintro _ ⟨⟩; exact grvCarries_none rfl)
  | lstFromLeafRootUnlocked =>
    cases h
    exact Outcome.forall_placed (grvSendGst_carries hst) (by rintro _ ⟨⟩)
  | startGstComputation =>
    simp only [grvProcessEvent, grvProcessStartGstComputation] at h
    split at h
    · split at h <;> cases h
      · exact hnone rfl
      · exact hnone rfl
    · cases h
  | gstFromRoot rootGst =>
    cases h
    refine Outcome.forall_placed (grvSendGst_carries (he _ rfl)) ?_
    rintro _ ⟨⟩
    exact grvCarries_some rfl (he _ rfl)
  | gstFromRootLocked rootGst =>
    cases h
    exact hnext (by rintro _ ⟨⟩; exact grvCarries_none rfl)
  | gstFromRootUnlocked =>
    cases h
    refine Outcome.forall_placed (fun o ho => ?_) (by rintro _ ⟨⟩)
    dsimp only at ho
    split at ho
    · rw [List.mem_singleton.mp ho]
      exact grvCarries_none rfl
    · cases ho
  | sliceRequest request =>
    simp only [grvProcessEvent, grvProcessSliceRequest] at h
    split at h
    · cases h
      refine Outcome.forall_placed (List.forall_mem_singleton.mpr ?_) (by rintro _ ⟨⟩)
      exact grvCarries_some rfl (he _ rfl)
    · split at h
      · cases h
        exact hnext (by rintro _ ⟨⟩; exact grvCarries_some rfl (he _ rfl))
      · obtain ⟨r', hr', rfl⟩ := Option.map_eq_some_iff.mp h
        have hplaced : ∀ x ∈ r'.placed s, GrvCarries good x :=
          grvProcessSliceRequestUnlocked_carries hr'
        exact hplaced
  | sliceRequestUnlocked request => exact grvProcessSliceRequestUnlocked_carries h
  | sliceResponse slice =>
    simp only [grvProcessEvent, grvProcessSliceResponse] at h
    split at h
    · cases h
    · split at h <;> cases h
      · exact hnone rfl
      · exact hnext (by rintro _ ⟨⟩)
  | rotxRequest request =>
    simp only [grvProcessEvent, grvProcessRotxRequest] at h
    split at h
    · cases h
      exact hnext (by rintro _ ⟨⟩; exact grvCarries_some rfl (he _ rfl))
    · exact grvProcessRotxRequestUnlocked_carries h hst
  | rotxRequestUnlocked request => exact grvProcessRotxRequestUnlocked_carries h hst
  | clockTick =>
    simp only [grvProcessEvent, grvProcessClockTick] at h
    split at h
    · cases h
      exact hnext (by rintro _ ⟨⟩; exact grvCarries_none rfl)
    · exact grvProcessClockTickUnlocked_carries h
  | clockTickUnlocked sendTime => exact grvProcessClockTickUnlocked_carries h

/-- What a client knows of stable vectors: the larger entries of what it knew and what it is told. -/
theorem grvClientReceive_gstVector {st st' : GrvClientState c} (h : grvClientReceive st e = some st') :
    st'.gstVector = st.gstVector ∨
      ∃ v, e.gstVector? = some v ∧ st'.gstVector = setMaxVector st.gstVector v := by
  have hfinish : ∀ {st' : GrvClientState c}, grvClientFinishRequest st = some st' →
      st'.gstVector = st.gstVector := by
    intro st' h
    unfold grvClientFinishRequest at h
    split at h <;> cases h
    rfl
  cases e with
  | getResponse response =>
    obtain ⟨st₁, hst, rfl⟩ := Option.map_eq_some_iff.mp h
    refine .inr ⟨response.gstVector, rfl, ?_⟩
    rw [← hfinish hst]
    rfl
  | putResponse response =>
    obtain ⟨st₁, hst, rfl⟩ := Option.map_eq_some_iff.mp h
    have hsame := hfinish hst
    exact .inl hsame
  | rotxResponse response =>
    obtain ⟨st₁, hst, rfl⟩ := Option.map_eq_some_iff.mp h
    have hsame := hfinish hst
    exact .inl hsame
  | clientTick =>
    cases h
    exact .inl rfl
  | _ => cases h

/-- A client sends the vector that it knows, to its server. -/
theorem grvClientDecide_carries {k : ClientId c} {t : ℚ} {st : GrvClientState c}
    {decision : Decision} {a : GrvClientState c × List (GrvOut c)}
    (h : grvClientDecide k t st decision = some a) (hst : good k.1 st.gstVector) :
    a.1.gstVector = st.gstVector ∧ ∀ x ∈ placedOfClient k a.2, GrvCarries good x := by
  have hsend : ∀ {request : GrvClientState c → GrvEvent c} {a : GrvClientState c × List (GrvOut c)},
      grvClientSend k t st request = some a →
      (∀ st', st'.gstVector = st.gstVector → GrvCarries good (.inl k.server, request st')) →
        a.1.gstVector = st.gstVector ∧ ∀ x ∈ placedOfClient k a.2, GrvCarries good x := by
    intro request a h hrequest
    unfold grvClientSend at h
    obtain ⟨st', hst, rfl⟩ := Option.map_eq_some_iff.mp h
    unfold grvClientBeginRequest at hst
    split at hst <;> cases hst
    exact ⟨rfl, List.forall_mem_singleton.mpr (hrequest _ rfl)⟩
  cases decision with
  | nothing =>
    cases h
    exact ⟨rfl, List.forall_mem_nil _⟩
  | tick delay =>
    simp only [grvClientDecide] at h
    split at h <;> cases h
    exact ⟨rfl, List.forall_mem_singleton.mpr (grvCarries_none rfl)⟩
  | put key value => exact hsend h fun _ _ => grvCarries_none rfl
  | get key => exact hsend h fun st' hst' => grvCarries_some rfl (hst'.symm ▸ hst)
  | rotx keys => exact hsend h fun st' hst' => grvCarries_some rfl (hst'.symm ▸ hst)

/-! ## 2. What is promised -/

/-- Every entry of the vector is a promise of the data center. -/
def GrvPromised (h : List (GrvAct c)) (r : Replica c) (v : TimeVector c) : Prop :=
  ∀ i, Promised GrvServerState.versionVector r i (v i) h

variable {h : List (GrvAct c)} {a : GrvAct c} {r₀ : Replica c} {v w : TimeVector c}

theorem GrvPromised.cons (hv : GrvPromised h r₀ v) : GrvPromised (a :: h) r₀ v :=
  fun i => (hv i).cons

theorem GrvPromised.setMax (hv : GrvPromised h r₀ v) (hw : GrvPromised h r₀ w) :
    GrvPromised h r₀ (setMaxVector v w) := by
  intro i
  unfold setMaxVector
  split
  · exact hw i
  · exact hv i

section Runs

variable {setup : Setup c (GrvEvent c)} {Q : GrvAct c → Prop} {M : GrvMail c}

/-- What the root reads, and what the only partition takes, is promised. -/
theorem grvNextGst_promised (hr : Mail.Run (grvProgram c) Q (grvWorld setup).config.mail M h)
    (hev : (.inl s, e) ∈ M.events) (he : GrvCarries (GrvPromised h) (.inl s, e))
    (hleaf : e = .startGstComputation → isLeafPartition s.2 = true) :
    ∀ v ∈ grvNextGst s (M.server s) e, GrvPromised h s.1 v := by
  have hinit : ∀ s i, ((grvWorld setup).config.mail.server s).versionVector i ≤ 0 :=
    fun _ _ => le_rfl
  intro v hv
  cases e with
  | lstFromLeafRootLocked =>
    cases hv
    intro i
    refine (grv_rounds_kept hr i).minimum_promised (fun s => hr.contributions_le ?_ hinit s) hev rfl
    intro s st e v hv
    cases e with
    | startGstComputation | lstFromLeaf =>
      simp only [grvRounds] at hv
      split at hv
      · exact (List.mem_singleton.mp hv).le
      · cases hv
    | _ => cases hv
  | startGstComputation =>
    simp only [grvNextGst] at hv
    split at hv
    · rename_i hroot
      cases hv
      intro i p
      rw [only_partition hroot (hleaf rfl) p]
      exact hr.le_largestHeld hinit s i
    · cases hv
  | getRequest request =>
    simp only [grvNextGst] at hv
    split at hv
    · cases hv
      exact he _ rfl
    · cases hv
  | forwardedGetRequestLocked | getRequestLocked | rotxRequestLocked | sliceRequestLocked
  | gstFromRootLocked =>
    cases hv
    exact he _ rfl
  | _ => cases hv

/-- **Every stable vector is a promise**, at the servers, with the clients and on its way. -/
theorem grv_promised (hr : Mail.Run (grvProgram c) Q (grvWorld setup).config.mail M h) :
    (∀ s, GrvPromised h s.1 (M.server s).gstVector) ∧
      (∀ k, GrvPromised h k.1 (M.client k).gstVector) ∧
        ∀ x ∈ M.events, GrvCarries (GrvPromised h) x := by
  refine hr.flow_all (fun h s st => GrvPromised h s.1 st.gstVector)
    (fun h k st => GrvPromised h k.1 st.gstVector) (fun h => GrvCarries (GrvPromised h))
    .cons .cons (fun hx v hv => (hx v hv).cons) ?_ ?_ (fun _ _ => .zero) (fun _ _ => .zero) ?_
  · intro M h s t e r hrun hev hserve hst he
    have hr := grvServerProcessEvent_some hserve
    have hgst : GrvPromised h s.1 r.state.gstVector := by
      rw [grvProcessEvent_nextGst hr, grvNextGst_now]
      have hnext := grvNextGst_promised hrun hev he (by
        rintro rfl
        simp only [grvProcessEvent, grvProcessStartGstComputation] at hr
        split at hr
        · assumption
        · cases hr)
      cases hn : grvNextGst s (M.server s) e with
      | none => exact hst
      | some v =>
        intro i
        rw [Option.elim_some, grvUpdateGstVector_gstVector]
        exact (hst i).max (hnext v hn i)
    have hcarries : ∀ x ∈ r.placed s, GrvCarries (GrvPromised h) x :=
      grvProcessEvent_carries hr ((grv_formed hrun).2 _ hev) hst he
    exact ⟨hgst.cons, fun x hx v hv => (hcarries x hx v hv).cons⟩
  · intro M h k t decision e r hrun hasked hst he
    simp only [grvProgram, grvClientProcessEvent] at hasked
    split at hasked
    · cases hasked
    · rename_i st' hreceived
      have hst' : GrvPromised h k.1 st'.gstVector := by
        rcases grvClientReceive_gstVector hreceived with hsame | ⟨v, hv, hmax⟩
        · rw [hsame]
          exact hst
        · rw [hmax]
          exact hst.setMax (he v hv)
      have hcarries : r.1.gstVector = st'.gstVector ∧
          ∀ x ∈ placedOfClient k r.2, GrvCarries (GrvPromised h) x :=
        grvClientDecide_carries hasked hst'
      refine ⟨?_, fun x hx v hv => (hcarries.2 x hx v hv).cons⟩
      rw [hcarries.1]
      exact hst'.cons
  · intro x hx
    rcases Setup.mem_mail hx with ⟨s, rfl, -⟩ | ⟨s, rfl⟩ | ⟨k, rfl⟩ <;> exact grvCarries_none rfl

end Runs

/-! ## 3. Every run of the simulator -/

/-- The stable vectors of all servers, messages and clients of a world are promises of their data
centers. -/
structure GrvVectorsPromised (W : GrvWorld c) (h : List (GrvAct c)) : Prop where
  server : ∀ s, GrvPromised h s.1 (W.servers s).state.gstVector
  message : ∀ x ∈ W.config.mail.events, GrvCarries (GrvPromised h) x
  client : ∀ k, GrvPromised h k.1 (W.clients k).state.gstVector

/-- **Safety of the stable vectors.**  In every state of every run, no entry of the stable vector of
a server, a message or a client is larger than the largest value that this entry of the version
vector has held at any partition of the data center; and no step lowers an entry at a server. -/
theorem grv_vector_safety (setup : Setup c (GrvEvent c)) (W : GrvWorld c) (h : List (GrvAct c))
    (hrun : World.Run (grvProgram c) setup.conf (fun _ _ => True) (grvWorld setup) W h) :
    GrvVectorsPromised W h ∧
      ∀ (choice : Choice Decision) (W' : GrvWorld c) (a : Option (GrvAct c)),
        W.step (grvProgram c) setup.conf choice = some (W', a) →
          ∀ s i, (W.servers s).state.gstVector i ≤ (W'.servers s).state.gstVector i := by
  constructor
  · obtain ⟨hserver, hclient, hmessage⟩ :=
      grv_promised (hrun.config.mail (Q := fun _ => True) fun _ _ => trivial)
    exact ⟨hserver, hmessage, hclient⟩
  · intro choice W' a hstep
    refine hrun.step_rule (Φ := fun A A' => ∀ s i, (A.server s).gstVector i ≤
      (A'.server s).gstVector i) (fun _ _ _ => le_rfl)
      (fun h h' s i => (h s i).trans (h' s i)) (fun _ hs _ s' i => ?_) hstep fun _ _ => trivial
    cases hs with
    | @serve s t x e tb r rest new _ _ _ hserve _ =>
      by_cases hs : s' = s
      · subst hs
        dsimp only
        rw [Function.update_self]
        exact grvServerProcessEvent_gst hserve i
      · dsimp only
        rw [Function.update_of_ne hs]
    | release | client | wait => exact le_rfl

/-- The first round of `roundRun`, up to where the last partition has heard of its result. -/
def resultRun : List (Choice Decision) :=
  roundRun ++ choices [(3, 0), (3, 1), (3, 1), (3, 0), (3, 0), (3, 0), (3, 0)] [] []

/-- At the end of this run the stable time of the last partition is 13/25, the time of the PUT at the
second one. -/
theorem grv_vector_safety_round : ∃ W h W' a,
    World.Run (grvProgram trio) (writerSetup _).conf (fun _ _ => True) (grvWorld (writerSetup _)) W h ∧
      W.step (grvProgram trio) (writerSetup _).conf (Choice.steady (1 / 100) 3 0 .nothing) =
        some (W', a) ∧
      (∀ p, 13 / 25 ≤ largestHeld GrvServerState.versionVector (trio.replica0, p) trio.replica0 h) ∧
      13 / 25 ≤ (W'.servers (serverAt trio 0 2)).state.gstVector trio.replica0 := by
  obtain ⟨W, h, W', a, hrun, hstep, -, hseen⟩ := World.Run.of_replay_step (grvProgram trio)
    (writerSetup _).conf (grvWorld (writerSetup _)) Cond.tested_true resultRun
    (Choice.steady (1 / 100) 3 0 .nothing)
    (fun W _ => decide ((W.servers (serverAt trio 0 2)).state.gstVector trio.replica0 = 13 / 25))
    (by decide +kernel)
  obtain ⟨hpromised, hgrows⟩ := grv_vector_safety (writerSetup _) W h hrun
  have hgst := of_decide_eq_true hseen
  refine ⟨W, h, W', a, hrun, hstep, fun p => ?_, ?_⟩
  · rw [← hgst]
    exact hpromised.server (serverAt trio 0 2) trio.replica0 p
  · rw [← hgst]
    exact hgrows _ W' a hstep _ _

end CCSim
