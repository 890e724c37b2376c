/-
# Which way requests and answers take (`gr`)

The counterpart for `gr` of `GrvAddressed`: a request is at the server of its client, or has been
forwarded by this server to the one that holds the key; an answer goes back the same way.  So nothing
that is sent for a request leaves the data center of its client, and a request is not forwarded twice
(`Routed.proxy_eq_none`).
-/
import CCSim.Gr.Requests
import CCSim.Routes

namespace CCSim

variable {c : Cluster} {s : ServerId c} {st : GrServerState c} {e : GrEvent c} {r : GrOutcome c}

/-- A slot is answered to its client along a link, and a transaction is at the server of its
client. -/
structure GrLinked (s : ServerId c) (st : GrServerState c) : Prop where
  get : ∀ id getState, ptrArrayGet st.getStates id = some getState →
    RepliesTo s getState.client getState.destination
  put : ∀ id putState, ptrArrayGet st.putStates id = some putState →
    RepliesTo s putState.client putState.destination
  rotx : ∀ id rotx, ptrArrayGet st.rotxStates id = some rotx → rotx.client.server = s

/-- Requests and answers take the right way, and so do the slices of a snapshot. -/
def GrRouted : (ServerId c ⊕ ClientId c) × GrEvent c → Prop
  | (.inl s, .getRequest request) => Routed s request.client request.proxy request.key
  | (.inl s, .getResponse response) => response.client.server = s
  | (.inr k, .getResponse response) => response.client = k
  | (.inl s, .putRequest request) => Routed s request.client request.proxy request.key
  | (.inl s, .putResponse response) => response.client.server = s
  | (.inr k, .putResponse response) => response.client = k
  | (.inl s, .rotxRequest request) => request.client.server = s
  | (.inr k, .rotxResponse response) => response.client = k
  | (.inl s, .sliceRequest request) => request.fromLpid.1 = s.1
  | (.inl s, .sliceRequestLocked request) => request.fromLpid.1 = s.1
  | (.inl s, .sliceRequestUnlocked request) => request.fromLpid.1 = s.1
  | _ => True

theorem grRouted_other {x : (ServerId c ⊕ ClientId c) × GrEvent c} (h : x.2.Other) :
    GrRouted x := by
  obtain ⟨p, e⟩ := x
  cases e <;> first | exact h.elim | (cases p <;> trivial)

theorem GrLinked.of_eq {st' : GrServerState c} (h : GrLinked s st)
    (hget : st'.getStates = st.getStates) (hput : st'.putStates = st.putStates)
    (hrotx : st'.rotxStates = st.rotxStates) : GrLinked s st' := by
  refine ⟨?_, ?_, ?_⟩
  · rw [hget]
    exact h.get
  · rw [hput]
    exact h.put
  · rw [hrotx]
    exact h.rotx

theorem GrLinked.updateGst (h : GrLinked s st) (gst : ℚ) : GrLinked s (grUpdateGst st gst).1 := by
  refine ⟨?_, ?_, fun id rotx' hrotx => ?_⟩
  · rw [grUpdateGst_getStates]
    exact h.get
  · rw [grUpdateGst_putStates]
    exact h.put
  · obtain ⟨rotx, hget, rfl | ⟨rfl, -⟩⟩ := grUpdateGst_rotx hrotx
    · exact h.rotx id _ hget
    · exact h.rotx id rotx hget

theorem grUpdateGst_routed (st : GrServerState c) (gst : ℚ) :
    ∀ o ∈ (grUpdateGst st gst).2, GrRouted (o.place s, o.event) := by
  intro o ho
  obtain ⟨id, rotx, -, rfl⟩ := grUpdateGst_out ho
  trivial

/-- An answer goes to its client, or to the server of its client. -/
theorem RepliesTo.routed {k : ClientId c} {lpid : Lpid c} (h : RepliesTo s k lpid)
    (hs : GrRouted (.inl k.server, e)) (hk : GrRouted (.inr k, e)) :
    GrRouted ((grSend lpid e).place s, (grSend lpid e).event) := by
  rcases h with ⟨rfl, -⟩ | ⟨rfl, -⟩
  · exact hk
  · exact hs

/-- **Every handler sends things the right way.** -/
theorem GrWork.routed (hw : GrWork s st e r) (hformed : GrFormed s st) (hst : GrLinked s st)
    (he : GrRouted (.inl s, e)) : GrLinked s r.state ∧ ∀ x ∈ r.placed s, GrRouted x := by
  cases hw with
  | other _ hget hput _ hrotx hnew =>
    exact ⟨hst.of_eq hget hput hrotx, fun x hx => grRouted_other (hnew x hx)⟩
  | wake _ gst others hstate hplaced hothers =>
    rw [hstate, hplaced]
    refine ⟨hst.updateGst gst, fun x hx => ?_⟩
    rcases List.mem_append.mp hx with hx | hx
    · obtain ⟨o, ho, rfl⟩ := List.mem_map.mp hx
      exact grUpdateGst_routed st gst o ho
    · exact grRouted_other (hothers x hx)
  | getForward hproxy hcont =>
    refine ⟨hst, Outcome.forall_placed (List.forall_mem_singleton.mpr ?_) fun e he => ?_⟩
    · rw [GrRouted, hproxy] at he
      exact he.forward
    · exact grRouted_other (x := (.inl s, e)) (hcont e he)
  | getOpen =>
    refine ⟨⟨forall_ptrArrayPut hst.get (Routed.repliesTo he), hst.put, hst.rotx⟩,
      Outcome.forall_placed (List.forall_mem_nil _) ?_⟩
    rintro _ ⟨⟩
    trivial
  | @getServe request =>
    have hreplies : RepliesTo s request.client request.state.destination := Routed.repliesTo he
    refine ⟨⟨?_, hst.put, hst.rotx⟩,
      Outcome.forall_placed (List.forall_mem_singleton.mpr (hreplies.routed rfl rfl))
        (by rintro _ ⟨⟩)⟩
    have hput := forall_ptrArrayPut hst.get (x := request.state) hreplies
    have hslot : ptrArrayGet (ptrArrayPut request.state st.getStates)
        (ptrArrayFree st.getStates) = some request.state := by
      rw [ptrArrayPut_get, if_pos rfl]
    exact forall_ptrArraySet hput hslot (by rintro _ ⟨⟩)
  | getLocked hget =>
    refine ⟨hst.updateGst _, Outcome.forall_placed (grUpdateGst_routed st _) ?_⟩
    rintro _ ⟨⟩
    trivial
  | @getUnlocked id getState hget =>
    exact ⟨⟨forall_ptrArraySet hst.get hget (by rintro _ ⟨⟩), hst.put, hst.rotx⟩,
      Outcome.forall_placed
        (List.forall_mem_singleton.mpr ((hst.get id getState hget).routed rfl rfl))
        (by rintro _ ⟨⟩)⟩
  | getResponse =>
    exact ⟨hst, Outcome.forall_placed (List.forall_mem_singleton.mpr rfl) (by rintro _ ⟨⟩)⟩
  | putForward hproxy =>
    refine ⟨hst, Outcome.forall_placed (List.forall_mem_singleton.mpr ?_) (by rintro _ ⟨⟩)⟩
    rw [GrRouted, hproxy] at he
    exact he.forward
  | putDefer =>
    exact ⟨hst, Outcome.forall_placed (List.forall_mem_singleton.mpr he) (by rintro _ ⟨⟩)⟩
  | putOpen =>
    refine ⟨⟨hst.get, forall_ptrArrayPut hst.put (Routed.repliesTo he), hst.rotx⟩,
      Outcome.forall_placed (List.forall_mem_nil _) ?_⟩
    rintro _ ⟨⟩
    trivial
  | @putLocked id putState hput =>
    refine ⟨⟨hst.get, forall_ptrArraySet hst.put hput ?_, hst.rotx⟩,
      Outcome.forall_placed (List.forall_mem_nil _) ?_⟩
    · rintro _ ⟨⟩
      exact hst.put id putState hput
    · rintro _ ⟨⟩
      trivial
  | @putUnlocked id putState stamp hput =>
    refine ⟨⟨hst.get, forall_ptrArraySet hst.put hput (by rintro _ ⟨⟩), hst.rotx⟩,
      Outcome.forall_placed (List.forall_mem_cons.mpr ⟨?_, fun o ho => ?_⟩) (by rintro _ ⟨⟩)⟩
    · exact (hst.put id putState hput).routed rfl rfl
    · split at ho
      · cases ho
      · obtain ⟨s', -, rfl⟩ := List.mem_map.mp ho
        trivial
  | putResponse =>
    exact ⟨hst, Outcome.forall_placed (List.forall_mem_singleton.mpr rfl) (by rintro _ ⟨⟩)⟩
  | rotxRequest =>
    refine ⟨⟨hst.get, hst.put, forall_ptrArrayPut hst.rotx he⟩,
      Outcome.forall_placed (fun o ho => ?_) (by rintro _ ⟨⟩)⟩
    dsimp only at ho
    split at ho
    · cases ho
    · obtain rfl := List.mem_singleton.mp ho
      trivial
  | snapshotRequest =>
    refine ⟨hst.of_eq rfl rfl rfl, Outcome.forall_placed (List.forall_mem_nil _) ?_⟩
    rintro _ ⟨⟩
    trivial
  | snapshotLocked =>
    refine ⟨(hst.updateGst _).of_eq rfl rfl rfl,
      Outcome.forall_placed (grUpdateGst_routed st _) ?_⟩
    rintro _ ⟨⟩
    trivial
  | snapshotUnlocked =>
    refine ⟨hst, Outcome.forall_placed (fun o ho => ?_) (by rintro _ ⟨⟩)⟩
    obtain ⟨i, hi, rfl⟩ := List.mem_mapIdx.mp ho
    rfl
  | sliceRequest =>
    refine ⟨hst, Outcome.forall_placed (List.forall_mem_nil _) ?_⟩
    rintro _ ⟨⟩
    exact he
  | sliceLocked =>
    refine ⟨hst.updateGst _, Outcome.forall_placed (grUpdateGst_routed st _) ?_⟩
    rintro _ ⟨⟩
    exact he
  | sliceServe =>
    exact ⟨hst, Outcome.forall_placed (List.forall_mem_singleton.mpr trivial) (by rintro _ ⟨⟩)⟩
  | sliceResponse =>
    refine ⟨hst, Outcome.forall_placed (List.forall_mem_nil _) ?_⟩
    rintro _ ⟨⟩
    trivial
  | receiveLocked =>
    refine ⟨hst.updateGst _, Outcome.forall_placed (grUpdateGst_routed st _) ?_⟩
    rintro _ ⟨⟩
    trivial
  | receive =>
    exact ⟨hst.of_eq rfl rfl rfl, Outcome.forall_placed (List.forall_mem_nil _) (by rintro _ ⟨⟩)⟩
  | receiveLast _ _ _ hrotx =>
    exact ⟨⟨hst.get, hst.put, forall_ptrArraySet hst.rotx hrotx (by rintro _ ⟨⟩)⟩,
      Outcome.forall_placed (List.forall_mem_singleton.mpr rfl) (by rintro _ ⟨⟩)⟩
  | abroad _ hget hclient => exact absurd (hformed.snapshot _ _ hget) hclient

theorem GrAsk.routed {k : ClientId c} {st : GrClientState c}
    {x : (ServerId c ⊕ ClientId c) × GrEvent c} (h : GrAsk k st x) : GrRouted x := by
  cases h <;> trivial

/-- **In every run.** -/
theorem gr_routed {setup : Setup c (GrEvent c)} {Q : GrAct c → Prop} {M : GrMail c}
    {h : List (GrAct c)} (hr : Mail.Run (grProgram c) Q (grWorld setup).config.mail M h) :
    (∀ s, GrLinked s (M.server s)) ∧ ∀ x ∈ M.events, GrRouted x := by
  have hflow := hr.flow_all (fun _ => GrLinked) (fun _ _ _ => True) (fun _ => GrRouted) id id id
    ?_ ?_ (fun s => ⟨by rintro id _ ⟨⟩, by rintro id _ ⟨⟩, by rintro id _ ⟨⟩⟩) (fun _ => trivial) ?_
  · exact ⟨hflow.1, hflow.2.2⟩
  · intro M h s t e r hrun hmem hserve hst he
    have hformed : GrFormed s { M.server s with now := t, clock := c.clock s t } :=
      ((gr_formed hrun).1 s).of_eq rfl rfl rfl rfl
    exact (grProcessEvent_work (grServerProcessEvent_some hserve)).routed hformed
      (hst.of_eq rfl rfl rfl) he
  · intro M h k t decision e r hrun hasked _ _
    obtain ⟨st', -, -, hasks⟩ := grClientProcessEvent_asks hasked
    exact ⟨trivial, fun x hx => (hasks x hx).routed⟩
  · intro x hx
    rcases Setup.mem_mail hx with ⟨s, rfl, -⟩ | ⟨s, rfl⟩ | ⟨k, rfl⟩ <;> trivial

end CCSim
