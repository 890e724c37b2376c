/-
# Who works on which request (`gr`)

A request of a client is always in one place: in a message, in a slot of `get_states`,
`put_states` or `rotx_states`, or in the answer.  A slot is referred to by exactly one event in
flight, a slot of `rotx_states` that does not wait by one event or by one snapshot.  Both are
balances: every handler gives away what it gets (`grProcessEvent_books`), so the references to a
client add up to whether it waits for an answer, and the references to a slot to whether it is in
use (`GrBalanced`).
-/
import CCSim.Gr.Coverage
import CCSim.Gr.Work
import Mathlib.Algebra.BigOperators.Pi
import Mathlib.Algebra.Order.BigOperators.Group.Finset

namespace CCSim

variable {c : Cluster}

/-! ## 1. References -/

/-- What an event can refer to: a client that waits for an answer, and the slots of a server. -/
inductive GrRef (c : Cluster)
  | client (k : ClientId c)
  | get (s : ServerId c) (id : ℕ)
  | put (s : ServerId c) (id : ℕ)
  | rotx (s : ServerId c) (id : ℕ)
  deriving DecidableEq

/-- One reference. -/
def GrRef.one (ref : GrRef c) : GrRef c → ℤ := Pi.single ref 1

/-- The references of an event at its place.  An answer that has reached a client refers to this
client; a snapshot refers to the transaction it is for. -/
def grRefs : (ServerId c ⊕ ClientId c) × GrEvent c → GrRef c → ℤ
  | (_, .getRequest request) => (GrRef.client request.client).one
  | (.inl s, .getRequestLocked id) => (GrRef.get s id).one
  | (.inl s, .getRequestUnlocked id) => (GrRef.get s id).one
  | (.inl _, .getResponse response) => (GrRef.client response.client).one
  | (.inr k, .getResponse _) => (GrRef.client k).one
  | (_, .putRequest request) => (GrRef.client request.client).one
  | (.inl s, .putRequestLocked id) => (GrRef.put s id).one
  | (.inl s, .putRequestUnlocked id) => (GrRef.put s id).one
  | (.inl _, .putResponse response) => (GrRef.client response.client).one
  | (.inr k, .putResponse _) => (GrRef.client k).one
  | (_, .rotxRequest request) => (GrRef.client request.client).one
  | (.inl s, .getSnapshotRequest request) => (GrRef.rotx s request.requestId).one
  | (.inr k, .rotxResponse _) => (GrRef.client k).one
  | _ => 0

/-- What a server holds: the clients whose requests are in its slots, less the references to these
slots that have to be in flight. -/
def grHeld (s : ServerId c) (st : GrServerState c) : GrRef c → ℤ :=
  ptrArraySum (fun id getState => (GrRef.client getState.client).one - (GrRef.get s id).one)
      st.getStates +
    ptrArraySum (fun id putState => (GrRef.client putState.client).one - (GrRef.put s id).one)
      st.putStates +
    ptrArraySum (fun id rotx => (GrRef.client rotx.client).one - (GrRef.rotx s id).one +
        if rotx.waitingGst then (GrRef.rotx s rotx.snapshotRequest.requestId).one else 0)
      st.rotxStates +
    ptrArraySum (fun _ snapshot => (GrRef.rotx s snapshot.requestId).one) st.snapshotStates

/-- A client that waits for an answer owes a reference to itself. -/
def grHeldByClient (k : ClientId c) (st : GrClientState c) : GrRef c → ℤ :=
  if st.requestTime = none then 0 else -(GrRef.client k).one

/-! ## 2. What the slots say -/

/-- A slot is at the server that holds its key, and is answered to its own client; a snapshot is
taken for a transaction of the same server. -/
structure GrFormed (s : ServerId c) (st : GrServerState c) : Prop where
  get : ∀ id getState, ptrArrayGet st.getStates id = some getState →
    lpidForKey getState.client.server getState.key = s ∧
      ∀ k, getState.destination = .client k → k = getState.client
  put : ∀ id putState, ptrArrayGet st.putStates id = some putState →
    lpidForKey putState.client.server putState.key = s ∧
      ∀ k, putState.destination = .client k → k = putState.client
  rotx : ∀ id rotx, ptrArrayGet st.rotxStates id = some rotx →
    rotx.snapshotRequest.requestId = id ∧ rotx.snapshotRequest.client = .server s ∧
      rotx.client.1 = s.1
  snapshot : ∀ id snapshot, ptrArrayGet st.snapshotStates id = some snapshot →
    snapshot.client = .server s

/-- Requests stay in the data center of their client, an answer that has reached a client is for
this client, and a request for a slice is at the server that holds the key. -/
def GrAddressed : (ServerId c ⊕ ClientId c) × GrEvent c → Prop
  | (.inl s, .getRequest request) => request.client.1 = s.1
  | (.inr k, .getResponse response) => response.client = k
  | (.inl s, .putRequest request) => request.client.1 = s.1
  | (.inr k, .putResponse response) => response.client = k
  | (.inl s, .rotxRequest request) => request.client.1 = s.1
  | (.inr k, .rotxResponse response) => response.client = k
  | (.inl s, .getSnapshotRequest request) => request.client = .server s
  | (.inl s, .sliceRequest request) => lpidForKey request.fromLpid request.key = s
  | (.inl s, .sliceRequestLocked request) => lpidForKey request.fromLpid request.key = s
  | (.inl s, .sliceRequestUnlocked request) => lpidForKey request.fromLpid request.key = s
  | _ => True

theorem grAddressed_other {x : (ServerId c ⊕ ClientId c) × GrEvent c} (h : x.2.Other) :
    GrAddressed x := by
  obtain ⟨p, e⟩ := x
  cases e <;> first | exact h.elim | (cases p <;> trivial)

theorem replyTo_client {client k : ClientId c} {proxy : Option (ServerId c)}
    (h : replyTo client proxy = .client k) : k = client := by
  cases proxy <;> cases h
  rfl

/-- The server of the data center of a client that holds a key is the one it is sent to. -/
theorem lpidForKey_home {s : ServerId c} {k : ClientId c} {key : Key} (hk : k.1 = s.1)
    (hkey : lpidForKey s key = s) : lpidForKey k.server key = s := by
  rw [← hkey]
  exact Prod.ext hk rfl

/-! ## 3. It is passed on -/

theorem GrFormed.of_eq {s : ServerId c} {st st' : GrServerState c} (h : GrFormed s st)
    (hget : st'.getStates = st.getStates) (hput : st'.putStates = st.putStates)
    (hsnapshot : st'.snapshotStates = st.snapshotStates) (hrotx : st'.rotxStates = st.rotxStates) :
    GrFormed s st' := by
  refine ⟨?_, ?_, ?_, ?_⟩
  · rw [hget]
    exact h.get
  · rw [hput]
    exact h.put
  · rw [hrotx]
    exact h.rotx
  · rw [hsnapshot]
    exact h.snapshot

theorem GrFormed.updateGst {s : ServerId c} {st : GrServerState c} (h : GrFormed s st) (gst : ℚ) :
    GrFormed s (grUpdateGst st gst).1 := by
  refine ⟨?_, ?_, fun id rotx' hrotx => ?_, ?_⟩
  · rw [grUpdateGst_getStates]
    exact h.get
  · rw [grUpdateGst_putStates]
    exact h.put
  · obtain ⟨rotx, hget, rfl | ⟨rfl, -⟩⟩ := grUpdateGst_rotx hrotx
    · exact h.rotx id _ hget
    · exact h.rotx id rotx hget
  · rw [grUpdateGst_snapshotStates]
    exact h.snapshot

theorem grUpdateGst_addressed {s : ServerId c} {st : GrServerState c} (h : GrFormed s st)
    (gst : ℚ) : ∀ o ∈ (grUpdateGst st gst).2, GrAddressed (o.place s, o.event) := by
  intro o ho
  obtain ⟨id, rotx, hget, rfl⟩ := grUpdateGst_out ho
  exact (h.rotx id rotx hget).2.1

/-- An answer goes to its client, or to another server. -/
theorem grSend_addressed {s : ServerId c} {lpid : Lpid c} {e : GrEvent c}
    (hs : ∀ s', GrAddressed (.inl s', e)) (hk : ∀ k, lpid = .client k → GrAddressed (.inr k, e)) :
    GrAddressed ((grSend lpid e).place s, (grSend lpid e).event) := by
  cases lpid with
  | server s' => exact hs s'
  | client k => exact hk k rfl

/-- **Every handler passes on what is true of requests.** -/
theorem GrWork.formed {s : ServerId c} {st : GrServerState c} {e : GrEvent c} {r : GrOutcome c}
    (hw : GrWork s st e r) (hst : GrFormed s st) (he : GrAddressed (.inl s, e)) :
    GrFormed s r.state ∧ ∀ x ∈ r.placed s, GrAddressed x := by
  cases hw with
  | other _ hget hput hsnapshot hrotx hnew =>
    exact ⟨hst.of_eq hget hput hsnapshot hrotx, fun x hx => grAddressed_other (hnew x hx)⟩
  | wake _ gst others hstate hplaced hothers =>
    rw [hstate, hplaced]
    refine ⟨hst.updateGst gst, fun x hx => ?_⟩
    rcases List.mem_append.mp hx with hx | hx
    · obtain ⟨o, ho, rfl⟩ := List.mem_map.mp hx
      exact grUpdateGst_addressed hst gst o ho
    · exact grAddressed_other (hothers x hx)
  | getForward _ hcont =>
    refine ⟨hst, Outcome.forall_placed (List.forall_mem_singleton.mpr he) fun e he => ?_⟩
    exact grAddressed_other (x := (.inl s, e)) (hcont e he)
  | getOpen hkey =>
    refine ⟨⟨forall_ptrArrayPut hst.get ⟨lpidForKey_home he hkey, fun _ => replyTo_client⟩,
      hst.put, hst.rotx, hst.snapshot⟩, Outcome.forall_placed (List.forall_mem_nil _) ?_⟩
    rintro _ ⟨⟩
    trivial
  | @getServe request hkey =>
    refine ⟨⟨?_, hst.put, hst.rotx, hst.snapshot⟩,
      Outcome.forall_placed (List.forall_mem_singleton.mpr ?_) (by rintro _ ⟨⟩)⟩
    · have hhome : lpidForKey request.client.server request.key = s := lpidForKey_home he hkey
      have hput := forall_ptrArrayPut hst.get (x := request.state)
        ⟨hhome, fun _ => replyTo_client⟩
      have hslot : ptrArrayGet (ptrArrayPut request.state st.getStates)
          (ptrArrayFree st.getStates) = some request.state := by
        rw [ptrArrayPut_get, if_pos rfl]
      exact forall_ptrArraySet hput hslot (by rintro _ ⟨⟩)
    · exact grSend_addressed (fun _ => trivial) fun k hk => (replyTo_client hk).symm
  | @getLocked id getState hget =>
    refine ⟨hst.updateGst _, Outcome.forall_placed (grUpdateGst_addressed hst _) ?_⟩
    rintro _ ⟨⟩
    trivial
  | @getUnlocked id getState hget hkey =>
    refine ⟨⟨forall_ptrArraySet hst.get hget (by rintro _ ⟨⟩), hst.put, hst.rotx, hst.snapshot⟩,
      Outcome.forall_placed (List.forall_mem_singleton.mpr ?_) (by rintro _ ⟨⟩)⟩
    exact grSend_addressed (fun _ => trivial) fun k hk => ((hst.get id getState hget).2 k hk).symm
  | getResponse =>
    exact ⟨hst, Outcome.forall_placed (List.forall_mem_singleton.mpr rfl) (by rintro _ ⟨⟩)⟩
  | putForward =>
    exact ⟨hst, Outcome.forall_placed (List.forall_mem_singleton.mpr he) (by rintro _ ⟨⟩)⟩
  | putDefer =>
    exact ⟨hst, Outcome.forall_placed (List.forall_mem_singleton.mpr he) (by rintro _ ⟨⟩)⟩
  | putOpen hkey =>
    refine ⟨⟨hst.get, forall_ptrArrayPut hst.put ⟨lpidForKey_home he hkey, fun _ => replyTo_client⟩,
      hst.rotx, hst.snapshot⟩, Outcome.forall_placed (List.forall_mem_nil _) ?_⟩
    rintro _ ⟨⟩
    trivial
  | @putLocked id putState hput hkey =>
    refine ⟨⟨hst.get, forall_ptrArraySet hst.put hput ?_, hst.rotx, hst.snapshot⟩,
      Outcome.forall_placed (List.forall_mem_nil _) ?_⟩
    · rintro _ ⟨⟩
      exact hst.put id putState hput
    · rintro _ ⟨⟩
      trivial
  | @putUnlocked id putState stamp hput hstamp =>
    refine ⟨⟨hst.get, forall_ptrArraySet hst.put hput (by rintro _ ⟨⟩), hst.rotx, hst.snapshot⟩,
      Outcome.forall_placed (List.forall_mem_cons.mpr ⟨?_, fun o ho => ?_⟩) (by rintro _ ⟨⟩)⟩
    · exact grSend_addressed (fun _ => trivial) fun k hk => ((hst.put id putState hput).2 k hk).symm
    · split at ho
      · cases ho
      · obtain ⟨s', -, rfl⟩ := List.mem_map.mp ho
        trivial
  | putResponse =>
    exact ⟨hst, Outcome.forall_placed (List.forall_mem_singleton.mpr rfl) (by rintro _ ⟨⟩)⟩
  | rotxRequest =>
    refine ⟨⟨hst.get, hst.put, forall_ptrArrayPut hst.rotx ⟨rfl, rfl, he⟩, hst.snapshot⟩,
      Outcome.forall_placed (fun o ho => ?_) (by rintro _ ⟨⟩)⟩
    dsimp only at ho
    split at ho
    · cases ho
    · obtain rfl := List.mem_singleton.mp ho
      rfl
  | snapshotRequest =>
    refine ⟨⟨hst.get, hst.put, hst.rotx, forall_ptrArrayPut hst.snapshot he⟩,
      Outcome.forall_placed (List.forall_mem_nil _) ?_⟩
    rintro _ ⟨⟩
    trivial
  | @snapshotLocked id snapshot hget =>
    have hst' := hst.updateGst snapshot.gst
    have hget' : ptrArrayGet (grUpdateGst st snapshot.gst).1.snapshotStates id = some snapshot := by
      rw [grUpdateGst_snapshotStates]
      exact hget
    refine ⟨⟨hst'.get, hst'.put, hst'.rotx, forall_ptrArraySet hst'.snapshot hget' ?_⟩,
      Outcome.forall_placed (grUpdateGst_addressed hst _) ?_⟩
    · rintro _ ⟨⟩
      exact hst.snapshot id snapshot hget
    · rintro _ ⟨⟩
      trivial
  | @snapshotUnlocked id snapshot hget =>
    refine ⟨hst, Outcome.forall_placed (fun o ho => ?_) (by rintro _ ⟨⟩)⟩
    obtain ⟨i, hi, rfl⟩ := List.mem_mapIdx.mp ho
    rfl
  | sliceRequest =>
    refine ⟨hst, Outcome.forall_placed (List.forall_mem_nil _) ?_⟩
    rintro _ ⟨⟩
    exact he
  | sliceLocked =>
    refine ⟨hst.updateGst _, Outcome.forall_placed (grUpdateGst_addressed hst _) ?_⟩
    rintro _ ⟨⟩
    exact he
  | sliceServe =>
    exact ⟨hst, Outcome.forall_placed (List.forall_mem_singleton.mpr trivial) (by rintro _ ⟨⟩)⟩
  | sliceResponse =>
    refine ⟨hst, Outcome.forall_placed (List.forall_mem_nil _) ?_⟩
    rintro _ ⟨⟩
    trivial
  | receiveLocked =>
    refine ⟨hst.updateGst _, Outcome.forall_placed (grUpdateGst_addressed hst _) ?_⟩
    rintro _ ⟨⟩
    trivial
  | @receive _ slice snapshot _ hget =>
    refine ⟨⟨hst.get, hst.put, hst.rotx, forall_ptrArraySet hst.snapshot hget ?_⟩,
      Outcome.forall_placed (List.forall_mem_nil _) (by rintro _ ⟨⟩)⟩
    rintro _ ⟨⟩
    exact hst.snapshot _ snapshot hget
  | receiveLast _ hget _ hrotx =>
    exact ⟨⟨hst.get, hst.put, forall_ptrArraySet hst.rotx hrotx (by rintro _ ⟨⟩),
      forall_ptrArraySet hst.snapshot hget (by rintro _ ⟨⟩)⟩,
      Outcome.forall_placed (List.forall_mem_singleton.mpr rfl) (by rintro _ ⟨⟩)⟩
  | abroad _ hget hclient => exact absurd (hst.snapshot _ _ hget) hclient

/-! ## 4. The books -/

theorem grRefs_other {x : (ServerId c ⊕ ClientId c) × GrEvent c} (h : x.2.Other) :
    grRefs x = 0 := by
  obtain ⟨p, e⟩ := x
  cases e <;> first | exact h.elim | rfl

theorem sum_refs_other {l : List ((ServerId c ⊕ ClientId c) × GrEvent c)}
    (h : ∀ x ∈ l, x.2.Other) : (l.map grRefs).sum = 0 := by
  refine List.sum_eq_zero fun y hy => ?_
  obtain ⟨x, hx, rfl⟩ := List.mem_map.mp hy
  exact grRefs_other (h x hx)

/-- Transactions that are woken up are referred to by their requests for a snapshot instead. -/
theorem grUpdateGst_books (s : ServerId c) (st : GrServerState c) (gst : ℚ) :
    (((grUpdateGst st gst).2.map fun o => grRefs (o.place s, o.event)).sum) +
      grHeld s (grUpdateGst st gst).1 = grHeld s st := by
  unfold grUpdateGst
  split
  · have hsum := ptrArraySum_map
      (fun id (rotx : GrRotxState c) =>
        (GrRef.client rotx.client).one - (GrRef.rotx s id).one +
          if rotx.waitingGst then (GrRef.rotx s rotx.snapshotRequest.requestId).one else 0)
      (fun rotx => (grRotxGstUpdateCallback gst rotx).1)
      (fun rotx => (grRotxGstUpdateCallback gst rotx).2)
      (fun o : GrOut c => grRefs (o.place s, o.event)) (fun id rotx => ?_) st.rotxStates
    · have houts : (grRotxOnGstUpdated { st with gst := gst }).2 = st.rotxStates.flatMap
          fun x => x.elim [] fun rotx => (grRotxGstUpdateCallback gst rotx).2 := by
        refine congrArg (List.flatMap · st.rotxStates) (funext fun x => ?_)
        cases x <;> rfl
      rw [houts]
      simp only [grRotxOnGstUpdated, grHeld]
      rw [← hsum]
      abel
    · unfold grRotxGstUpdateCallback
      split
      · rename_i hwake
        simp only [hwake.1, if_true, List.map_cons, List.map_nil, List.sum_cons, List.sum_nil]
        show _ + ((GrRef.rotx s rotx.snapshotRequest.requestId).one + 0) = _
        simp
      · simp
  · simp

theorem grHeld_eq {s : ServerId c} {st st' : GrServerState c}
    (hget : st'.getStates = st.getStates) (hput : st'.putStates = st.putStates)
    (hsnapshot : st'.snapshotStates = st.snapshotStates) (hrotx : st'.rotxStates = st.rotxStates) :
    grHeld s st' = grHeld s st := by
  unfold grHeld
  rw [hget, hput, hsnapshot, hrotx]

/-- The reference of what a handler sends back. -/
theorem grSend_refs {s : ServerId c} (lpid : Lpid c) {k : ClientId c} (e : GrEvent c)
    (hlpid : ∀ k', lpid = .client k' → k' = k)
    (hs : ∀ s', grRefs (.inl s', e) = (GrRef.client k).one)
    (hk : grRefs (.inr k, e) = (GrRef.client k).one) :
    grRefs ((grSend lpid e).place s, (grSend lpid e).event) = (GrRef.client k).one := by
  cases lpid with
  | server s' => exact hs s'
  | client k' =>
    obtain rfl := hlpid k' rfl
    exact hk

/-- **Every handler keeps the books**, if a transaction whose snapshot is complete does not
wait. -/
theorem GrWork.books {s : ServerId c} {st : GrServerState c} {e : GrEvent c} {r : GrOutcome c}
    (hw : GrWork s st e r) (hst : GrFormed s st)
    (hwait : ∀ id snapshot rotx, ptrArrayGet st.snapshotStates id = some snapshot →
      ptrArrayGet st.rotxStates snapshot.requestId = some rotx → rotx.waitingGst = false) :
    ((r.placed s).map grRefs).sum + grHeld s r.state = grRefs (.inl s, e) + grHeld s st := by
  cases hw with
  | other he hget hput hsnapshot hrotx hnew =>
    rw [sum_refs_other hnew, grHeld_eq hget hput hsnapshot hrotx, grRefs_other he]
  | wake he gst others hstate hplaced hothers =>
    have hbooks := grUpdateGst_books s st gst
    rw [hplaced, List.map_append, List.sum_append, sum_refs_other hothers, List.map_map, hstate,
      grRefs_other he, ← hbooks]
    simp only [Function.comp_def]
    abel
  | @getForward request cont _ hcont =>
    have hnone : cont.event?.elim 0 (fun e => grRefs (.inl s, e)) = (0 : GrRef c → ℤ) := by
      cases hce : cont.event? with
      | none => rfl
      | some e => exact grRefs_other (x := (.inl s, e)) (hcont e hce)
    simp only [Outcome.sum_placed, hnone, List.map_cons, List.map_nil, List.sum_cons, List.sum_nil,
      Out.place, Out.event]
    simp only [grRefs]
    abel
  | getOpen hkey =>
    simp only [Outcome.sum_placed, grHeld, ptrArraySum_put, List.map_nil, List.sum_nil, Cont.event?,
      Option.elim_some, grRefs, GrGetRequest.state]
    abel
  | @getServe request hkey =>
    have hslot : ptrArrayGet (ptrArrayPut request.state st.getStates) (ptrArrayFree st.getStates) =
        some request.state := by
      rw [ptrArrayPut_get, if_pos rfl]
    have hsend := grSend_refs (s := s) request.state.destination
      (.getResponse (grGetAnswer s st request.state)) (fun _ => replyTo_client)
      (fun _ => rfl) rfl
    simp only [Outcome.sum_placed, grHeld, ptrArraySum_set _ hslot, ptrArraySum_put, List.map_cons,
      List.map_nil, List.sum_cons, List.sum_nil, Cont.event?, Option.elim_none, hsend]
    simp only [GrGetRequest.state, grRefs]
    abel
  | @getLocked id getState hget =>
    have hbooks := grUpdateGst_books s st getState.gst
    simp only [Outcome.sum_placed, Cont.event?, Option.elim_some, grRefs, ← hbooks]
    abel
  | @getUnlocked id getState hget hkey =>
    have hsend := grSend_refs (s := s) getState.destination
      (.getResponse (grGetAnswer s st getState)) (hst.get id getState hget).2
      (fun _ => rfl) rfl
    simp only [Outcome.sum_placed, grHeld, ptrArraySum_set _ hget, List.map_cons,
      List.map_nil, List.sum_cons, List.sum_nil, Cont.event?, Option.elim_none, hsend]
    simp only [grRefs]
    abel
  | getResponse =>
    simp only [Outcome.sum_placed, List.map_cons, List.map_nil, List.sum_cons, List.sum_nil,
      Cont.event?, Option.elim_none, Out.place, Out.event, grRefs]
    abel
  | putForward =>
    simp only [Outcome.sum_placed, List.map_cons, List.map_nil, List.sum_cons, List.sum_nil,
      Cont.event?, Option.elim_none, Out.place, Out.event, grRefs]
    abel
  | putDefer =>
    simp only [Outcome.sum_placed, List.map_cons, List.map_nil, List.sum_cons, List.sum_nil,
      Cont.event?, Option.elim_none, Out.place, Out.event, grRefs]
    abel
  | putOpen =>
    simp only [Outcome.sum_placed, grHeld, ptrArraySum_put, List.map_nil, List.sum_nil, Cont.event?,
      Option.elim_some, grRefs, GrPutRequest.state]
    abel
  | @putLocked id putState hput hkey =>
    simp only [Outcome.sum_placed, grPutOutcome, grHeld, ptrArraySum_set _ hput, List.map_nil,
      List.sum_nil, Cont.event?, Option.elim_some, grRefs]
    abel
  | @putUnlocked id putState stamp hput hstamp =>
    have hsend := grSend_refs (s := s) putState.destination
      (.putResponse (grPutAnswer s putState stamp)) (hst.put id putState hput).2
      (fun _ => rfl) rfl
    have hupdates : ((if stamp.discarded then []
        else grReplicateValue s (grPutUpdate s putState stamp)).map
          fun o : GrOut c => grRefs (o.place s, o.event)).sum = 0 := by
      refine List.sum_eq_zero fun y hy => ?_
      obtain ⟨o, ho, rfl⟩ := List.mem_map.mp hy
      split at ho
      · cases ho
      · obtain ⟨s', -, rfl⟩ := List.mem_map.mp ho
        rfl
    simp only [Outcome.sum_placed, grHeld, ptrArraySum_set _ hput, List.map_cons, hupdates,
      List.sum_cons, Cont.event?, Option.elim_none, hsend]
    simp only [grRefs]
    abel
  | putResponse =>
    simp only [Outcome.sum_placed, List.map_cons, List.map_nil, List.sum_cons, List.sum_nil,
      Cont.event?, Option.elim_none, Out.place, Out.event, grRefs]
    abel
  | @rotxRequest request =>
    by_cases hle : request.dependencyTime ≤ st.gst
    · simp only [Outcome.sum_placed, grHeld, ptrArraySum_put, hle, decide_true, Bool.not_true,
        List.map_cons, List.map_nil, List.sum_cons, List.sum_nil, Cont.event?, Option.elim_none,
        GrGetRotxRequest.state, grSendRotxSnapshotRequest, Out.place, Out.event, grRefs,
        Bool.false_eq_true, if_false, add_zero]
      abel
    · simp only [Outcome.sum_placed, grHeld, ptrArraySum_put, hle, decide_false, Bool.not_false,
        List.map_nil, List.sum_nil, Cont.event?, Option.elim_none,
        GrGetRotxRequest.state, grRefs, if_true]
      abel
  | snapshotRequest =>
    simp only [Outcome.sum_placed, grHeld, ptrArraySum_put, List.map_nil, List.sum_nil, Cont.event?,
      Option.elim_some, grRefs, GrGetSnapshotRequest.state]
    abel
  | @snapshotLocked id snapshot hget =>
    have hbooks := grUpdateGst_books s st snapshot.gst
    have hget' : ptrArrayGet (grUpdateGst st snapshot.gst).1.snapshotStates id = some snapshot := by
      rw [grUpdateGst_snapshotStates]
      exact hget
    simp only [grHeld] at hbooks
    simp only [Outcome.sum_placed, grHeld, ptrArraySum_set _ hget', Cont.event?, Option.elim_some,
      grRefs, ← hbooks]
    abel
  | @snapshotUnlocked id snapshot hget =>
    have hslices : ((grSliceRequests s id snapshot).map
        fun o => grRefs (o.place s, o.event)).sum = 0 := by
      refine List.sum_eq_zero fun y hy => ?_
      obtain ⟨o, ho, rfl⟩ := List.mem_map.mp hy
      obtain ⟨i, hi, rfl⟩ := List.mem_mapIdx.mp ho
      rfl
    simp only [Outcome.sum_placed, hslices, Cont.event?, Option.elim_none]
    simp only [grRefs]
    abel
  | sliceRequest =>
    simp only [Outcome.sum_placed, List.map_nil, List.sum_nil, Cont.event?, Option.elim_some,
      grRefs]
    abel
  | @sliceLocked request =>
    have hbooks := grUpdateGst_books s st request.snapshotTime
    simp only [Outcome.sum_placed, Cont.event?, Option.elim_some, grRefs, ← hbooks]
    abel
  | sliceServe he hkey =>
    have hnone : grRefs (.inl s, e) = 0 := by rcases he with rfl | ⟨rfl, -⟩ <;> rfl
    simp only [Outcome.sum_placed, List.map_cons, List.map_nil, List.sum_cons, List.sum_nil,
      Cont.event?, Option.elim_none, Out.place, Out.event, hnone]
    simp only [grRefs]
    abel
  | sliceResponse =>
    simp only [Outcome.sum_placed, List.map_nil, List.sum_nil, Cont.event?, Option.elim_some,
      grRefs]
    abel
  | @receiveLocked slice =>
    have hbooks := grUpdateGst_books s st slice.gst
    simp only [Outcome.sum_placed, Cont.event?, Option.elim_some, grRefs, ← hbooks]
    abel
  | @receive _ slice snapshot he hget hmore =>
    have hnone : grRefs (.inl s, e) = 0 := by rcases he with rfl | rfl <;> rfl
    simp only [Outcome.sum_placed, grHeld, ptrArraySum_set _ hget, List.map_nil, List.sum_nil,
      Cont.event?, Option.elim_none, Option.elim_some, grReceiveSlice, hnone]
    abel
  | @receiveLast _ slice snapshot rotx he hget hlast hrotx =>
    have hnone : grRefs (.inl s, e) = 0 := by rcases he with rfl | rfl <;> rfl
    have hidle := hwait _ _ _ hget hrotx
    simp only [Outcome.sum_placed, grHeld, ptrArraySum_set _ hget, ptrArraySum_set _ hrotx,
      List.map_cons, List.map_nil, List.sum_cons, List.sum_nil, Cont.event?, Option.elim_none,
      Out.place, Out.event, hnone, hidle, Bool.false_eq_true, if_false, add_zero]
    simp only [grRefs]
    abel
  | abroad he hget hclient => exact absurd (hst.snapshot _ _ hget) hclient

/-! ## 5. Clients -/

theorem grClientReceive_refs {k : ClientId c} {st st' : GrClientState c} {e : GrEvent c}
    (h : grClientReceive st e = some st') :
    grHeldByClient k st' = grRefs (.inr k, e) + grHeldByClient k st := by
  have hfinish : ∀ {st st' : GrClientState c}, grClientFinishRequest st = some st' →
      grHeldByClient k st' = (GrRef.client k).one + grHeldByClient k st := by
    intro st st' h
    unfold grClientFinishRequest at h
    split at h
    · cases h
    · rename_i hbusy
      cases h
      simp only [grHeldByClient, if_true, if_neg hbusy, add_neg_cancel]
  cases e with
  | getResponse response =>
    obtain ⟨st₁, hst, rfl⟩ := Option.map_eq_some_iff.mp h
    have hheld := hfinish hst
    exact hheld
  | putResponse response =>
    obtain ⟨st₁, hst, rfl⟩ := Option.map_eq_some_iff.mp h
    have hheld := hfinish hst
    exact hheld
  | rotxResponse response =>
    obtain ⟨st₁, hst, rfl⟩ := Option.map_eq_some_iff.mp h
    have hheld := hfinish hst
    exact hheld
  | clientTick =>
    cases h
    exact (zero_add _).symm
  | _ => cases h

/-- A client makes one request at a time. -/
theorem grClientDecide_refs {k : ClientId c} {t : ℚ} {st : GrClientState c} {decision : Decision}
    {r : GrClientState c × List (GrOut c)} (h : grClientDecide k t st decision = some r) :
    ((placedOfClient k r.2).map grRefs).sum + grHeldByClient k r.1 = grHeldByClient k st := by
  have hsend : ∀ {request : GrClientState c → GrEvent c} {r : GrClientState c × List (GrOut c)},
      grClientSend k t st request = some r →
      (∀ st, grRefs (.inl k.server, request st) = (GrRef.client k).one) →
        ((placedOfClient k r.2).map grRefs).sum + grHeldByClient k r.1 = grHeldByClient k st := by
    intro request r h hrefs
    unfold grClientSend at h
    obtain ⟨st', hst, rfl⟩ := Option.map_eq_some_iff.mp h
    unfold grClientBeginRequest at hst
    split at hst
    · rename_i hidle
      cases hst
      simp only [placedOfClient, List.map_cons, List.map_nil, List.sum_cons, List.sum_nil,
        Out.placeOfClient, Out.event, hrefs, grHeldByClient, hidle, if_true, reduceCtorEq, if_false]
      abel
    · cases hst
  cases decision with
  | nothing =>
    cases h
    exact zero_add _
  | tick delay =>
    simp only [grClientDecide] at h
    split at h <;> cases h
    simp only [placedOfClient, List.map_cons, List.map_nil, List.sum_cons, List.sum_nil,
      Out.placeOfClient, Out.event, grRefs]
    abel
  | get key => exact hsend h fun _ => rfl
  | put key value => exact hsend h fun _ => rfl
  | rotx keys => exact hsend h fun _ => rfl

theorem grClientProcessEvent_books {k : ClientId c} {t : ℚ} {decision : Decision}
    {st : GrClientState c} {e : GrEvent c} {r : GrClientState c × List (GrOut c)}
    (h : grClientProcessEvent k t decision st e = some r) :
    ((placedOfClient k r.2).map grRefs).sum + grHeldByClient k r.1 =
      grRefs (.inr k, e) + grHeldByClient k st := by
  unfold grClientProcessEvent at h
  split at h
  · cases h
  · rename_i st' hst
    exact (grClientDecide_refs h).trans (grClientReceive_refs hst)

/-- What a client asks for is in its own name. -/
theorem GrAsk.addressed {k : ClientId c} {st : GrClientState c}
    {x : (ServerId c ⊕ ClientId c) × GrEvent c} (h : GrAsk k st x) : GrAddressed x := by
  cases h <;> trivial

/-! ## 6. Every run -/

abbrev GrMail (c : Cluster) :=
  Mail (ServerId c) (ClientId c) (GrEvent c) (GrServerState c) (GrClientState c)

section Runs

variable {setup : Setup c (GrEvent c)} {Q : GrAct c → Prop} {M : GrMail c} {h : List (GrAct c)}

theorem gr_formed (hr : Mail.Run (grProgram c) Q (grWorld setup).config.mail M h) :
    (∀ s, GrFormed s (M.server s)) ∧ ∀ x ∈ M.events, GrAddressed x := by
  have hflow := hr.flow GrFormed (fun _ _ => True) GrAddressed
    (fun {s t st e r} hserve hst he => by
      have hst' : GrFormed s { st with now := t, clock := c.clock s t } :=
        hst.of_eq rfl rfl rfl rfl
      exact (grProcessEvent_work (grServerProcessEvent_some hserve)).formed hst' he)
    (fun hclient _ _ => by
      obtain ⟨st', -, -, hasks⟩ := grClientProcessEvent_asks hclient
      exact ⟨trivial, fun x hx => (hasks x hx).addressed⟩)
    (fun s => ⟨by rintro id _ ⟨⟩, by rintro id _ ⟨⟩, by rintro id _ ⟨⟩, by rintro id _ ⟨⟩⟩)
    (fun _ => trivial) fun x hx => ?_
  · exact ⟨hflow.1, hflow.2.2⟩
  · rcases Setup.mem_mail hx with ⟨s, rfl, -⟩ | ⟨s, rfl⟩ | ⟨k, rfl⟩ <;> trivial


/-- The client whose state says something about a reference. -/
def GrRef.waiter : GrRef c → ClientId c
  | .client k => k
  | .get s _ => (s.1, s.2, 0)
  | .put s _ => (s.1, s.2, 0)
  | .rotx s _ => (s.1, s.2, 0)

/-- All that refers to something, less what has to. -/
def grTotal (ref : GrRef c) (M : GrMail c) : ℤ :=
  M.total (fun x => grRefs x ref) (fun s st => grHeld s st ref) ref.waiter
    fun st => grHeldByClient ref.waiter st ref

theorem GrRef.one_nonneg (ref ref' : GrRef c) : 0 ≤ ref.one ref' := by
  rw [GrRef.one, Pi.single_apply]
  split <;> decide

theorem grRefs_nonneg (x : (ServerId c ⊕ ClientId c) × GrEvent c) (ref : GrRef c) :
    0 ≤ grRefs x ref := by
  unfold grRefs
  split <;> first | exact GrRef.one_nonneg _ _ | exact le_rfl

@[simp]
theorem GrRef.one_self (ref : GrRef c) : ref.one ref = 1 := by simp [GrRef.one]

@[simp]
theorem GrRef.one_of_ne {ref ref' : GrRef c} (h : ref' ≠ ref) : ref.one ref' = 0 := by
  simp [GrRef.one, h]

/-- What a server holds for a client. -/
theorem grHeld_client (s : ServerId c) (st : GrServerState c) (k : ClientId c) :
    grHeld s st (.client k) =
      ptrArraySum (fun _ getState => (GrRef.client getState.client).one (.client k))
          st.getStates +
        ptrArraySum (fun _ putState => (GrRef.client putState.client).one (.client k))
          st.putStates +
        ptrArraySum (fun _ rotx => (GrRef.client rotx.client).one (.client k)) st.rotxStates := by
  simp [grHeld, ptrArraySum_apply, ptrArraySum_zero, ite_apply]

/-- Only a request for a snapshot refers to a transaction. -/
theorem of_grRefs_rotx {x : (ServerId c ⊕ ClientId c) × GrEvent c} {s : ServerId c} {id : ℕ}
    (h : grRefs x (.rotx s id) ≠ 0) :
    ∃ request, x = (.inl s, .getSnapshotRequest request) ∧ request.requestId = id := by
  unfold grRefs at h
  split at h
  case h_12 s' request =>
    by_cases heq : GrRef.rotx s id = .rotx s' request.requestId
    · cases heq
      exact ⟨request, rfl, rfl⟩
    · exact absurd (GrRef.one_of_ne heq) h
  all_goals first | exact absurd (GrRef.one_of_ne (by rintro ⟨⟩)) h | exact absurd rfl h

/-- A slot in use owes one reference. -/
theorem grHeld_get (s : ServerId c) (st : GrServerState c) (id : ℕ) :
    grHeld s st (.get s id) = (ptrArrayGet st.getStates id).elim 0 fun _ => -1 := by
  have hsum : ptrArraySum (fun i (getState : GrGetState c) =>
      (GrRef.client getState.client).one (.get s id) - (GrRef.get s i).one (.get s id))
        st.getStates = (ptrArrayGet st.getStates id).elim 0 fun _ => -1 := by
    rw [← ptrArraySum_single]
    refine ptrArraySum_congr fun i getState _ => ?_
    by_cases hi : i = id
    · simp [hi]
    · simp [hi, Ne.symm hi]
  simp only [grHeld, Pi.add_apply, ptrArraySum_apply, Pi.sub_apply, hsum]
  simp [ptrArraySum_zero, ite_apply]

theorem grHeld_put (s : ServerId c) (st : GrServerState c) (id : ℕ) :
    grHeld s st (.put s id) = (ptrArrayGet st.putStates id).elim 0 fun _ => -1 := by
  have hsum : ptrArraySum (fun i (putState : GrPutState c) =>
      (GrRef.client putState.client).one (.put s id) - (GrRef.put s i).one (.put s id))
        st.putStates = (ptrArrayGet st.putStates id).elim 0 fun _ => -1 := by
    rw [← ptrArraySum_single]
    refine ptrArraySum_congr fun i putState _ => ?_
    by_cases hi : i = id
    · simp [hi]
    · simp [hi, Ne.symm hi]
  simp only [grHeld, Pi.add_apply, ptrArraySum_apply, Pi.sub_apply, hsum]
  simp [ptrArraySum_zero, ite_apply]

/-- A transaction owes one reference unless it waits, and its snapshots refer to it. -/
theorem grHeld_rotx {s : ServerId c} {st : GrServerState c} (hst : GrFormed s st) (id : ℕ) :
    grHeld s st (.rotx s id) =
      ((ptrArrayGet st.rotxStates id).elim 0 fun rotx => if rotx.waitingGst then 0 else -1) +
        ptrArraySum (fun _ snapshot => if snapshot.requestId = id then 1 else 0)
          st.snapshotStates := by
  have hsum : ptrArraySum (fun i (rotx : GrRotxState c) =>
      (GrRef.client rotx.client).one (.rotx s id) - (GrRef.rotx s i).one (.rotx s id) +
        (if rotx.waitingGst then (GrRef.rotx s rotx.snapshotRequest.requestId).one else 0)
          (.rotx s id)) st.rotxStates =
        (ptrArrayGet st.rotxStates id).elim 0 fun rotx => if rotx.waitingGst then 0 else -1 := by
    rw [← ptrArraySum_single]
    refine ptrArraySum_congr fun i rotx hrotx => ?_
    rw [(hst.rotx i rotx hrotx).1]
    by_cases hi : i = id
    · subst hi
      cases rotx.waitingGst <;> simp
    · cases rotx.waitingGst <;> simp [hi, Ne.symm hi]
  have hsnapshot : ptrArraySum (fun _ (snapshot : GrSnapshotState c) =>
      (GrRef.rotx s snapshot.requestId).one (.rotx s id)) st.snapshotStates =
        ptrArraySum (fun _ snapshot => if snapshot.requestId = id then 1 else 0)
          st.snapshotStates := by
    refine ptrArraySum_congr fun i snapshot _ => ?_
    by_cases hi : snapshot.requestId = id
    · simp [hi]
    · simp [hi, Ne.symm hi]
  simp only [grHeld, Pi.add_apply, ptrArraySum_apply, Pi.sub_apply, hsum, hsnapshot]
  simp [ptrArraySum_zero]

/-- Nobody else holds something for the slots of a server. -/
theorem grHeld_elsewhere {s s' : ServerId c} (hs : s' ≠ s) (st : GrServerState c) (id : ℕ) :
    grHeld s' st (.get s id) = 0 ∧ grHeld s' st (.put s id) = 0 ∧
      grHeld s' st (.rotx s id) = 0 := by
  have hs' := Ne.symm hs
  refine ⟨?_, ?_, ?_⟩ <;>
    simp [grHeld, ptrArraySum_apply, ptrArraySum_zero, hs', ite_apply]

theorem grTotal_slot {s : ServerId c} {id : ℕ} {ref : GrRef c}
    (href : ref = .get s id ∨ ref = .put s id ∨ ref = .rotx s id) :
    grTotal ref M = (M.events.map fun x => grRefs x ref).sum + grHeld s (M.server s) ref := by
  have hsum : ∑ s', grHeld s' (M.server s') ref = grHeld s (M.server s) ref := by
    refine Finset.sum_eq_single s (fun s' _ hs' => ?_) fun hs => absurd (Finset.mem_univ s) hs
    obtain ⟨hget, hput, hrotx⟩ := grHeld_elsewhere hs' (M.server s') id
    rcases href with rfl | rfl | rfl <;> assumption
  have hclient : ∀ k st, grHeldByClient (c := c) k st ref = 0 := by
    intro k st
    rcases href with rfl | rfl | rfl <;> simp [grHeldByClient, ite_apply]
  rw [grTotal, Mail.total, hsum, hclient, add_zero]

theorem sum_grRefs_nonneg (events : Multiset ((ServerId c ⊕ ClientId c) × GrEvent c))
    (ref : GrRef c) : 0 ≤ (events.map fun x => grRefs x ref).sum := by
  refine Multiset.sum_nonneg fun y hy => ?_
  obtain ⟨x, -, rfl⟩ := Multiset.mem_map.mp hy
  exact grRefs_nonneg x ref

/-- A transaction whose snapshot is being taken does not wait, if the references to it add up. -/
theorem grIdle_of_total {s : ServerId c} (hst : GrFormed s (M.server s)) {id : ℕ}
    {snapshot : GrSnapshotState c} {rotx : GrRotxState c}
    (htotal : grTotal (.rotx s snapshot.requestId) M = 0)
    (hsnapshot : ptrArrayGet (M.server s).snapshotStates id = some snapshot)
    (hrotx : ptrArrayGet (M.server s).rotxStates snapshot.requestId = some rotx) :
    rotx.waitingGst = false := by
  rw [grTotal_slot (.inr (.inr rfl)), grHeld_rotx hst, hrotx, Option.elim_some] at htotal
  have hev := sum_grRefs_nonneg M.events (.rotx s snapshot.requestId)
  have hone := le_ptrArraySum (f := fun _ (x : GrSnapshotState c) =>
    if x.requestId = snapshot.requestId then (1 : ℤ) else 0)
    (fun _ _ _ => by split <;> decide) hsnapshot
  rw [if_pos rfl] at hone
  cases hw : rotx.waitingGst with
  | false => rfl
  | true =>
    rw [hw, if_pos rfl] at htotal
    omega

/-- **The books balance in every state of a run.** -/
theorem gr_balanced (hr : Mail.Run (grProgram c) Q (grWorld setup).config.mail M h)
    (ref : GrRef c) : grTotal ref M = 0 := by
  have hstart : ∀ ref, grTotal ref (grWorld setup).config.mail = 0 := by
    intro ref
    have hev : ((grWorld setup).config.mail.events.map fun x => grRefs x ref).sum = 0 := by
      refine Multiset.sum_eq_zero fun y hy => ?_
      obtain ⟨x, hx, rfl⟩ := Multiset.mem_map.mp hy
      rcases Setup.mem_mail hx with ⟨s, rfl, -⟩ | ⟨s, rfl⟩ | ⟨k, rfl⟩ <;> rfl
    have hheld : ∀ s, grHeld s ((grWorld setup).config.mail.server s) ref = 0 := fun s => rfl
    rw [grTotal, Mail.total, hev, Finset.sum_eq_zero fun s _ => hheld s]
    rfl
  have hbalance := hr.balance (fun ref x => grRefs x ref) (fun ref s st => grHeld s st ref)
    GrRef.waiter (fun ref st => grHeldByClient ref.waiter st ref)
    (fun {M h s t e r} hrun hmem htotal hserve ref => ?_)
    (fun {M h k' t x e r} hrun hmem hclient ref => ?_) ref
  · exact hbalance.trans (hstart ref)
  · have hformed := gr_formed hrun
    have hst : GrFormed s { M.server s with now := t, clock := c.clock s t } :=
      (hformed.1 s).of_eq rfl rfl rfl rfl
    have hbooks := (grProcessEvent_work (grServerProcessEvent_some hserve)).books hst
      fun id snapshot rotx hsnapshot hrotx =>
        grIdle_of_total (hformed.1 s) ((htotal _).trans (hstart _)) hsnapshot hrotx
    have hbooks := congrFun hbooks ref
    rw [Pi.add_apply, Pi.add_apply, Pi.list_sum_apply, List.map_map] at hbooks
    exact hbooks
  · have hbooks := congrFun (grClientProcessEvent_books hclient) ref
    rw [Pi.add_apply, Pi.add_apply, Pi.list_sum_apply, List.map_map] at hbooks
    by_cases hk : k' = ref.waiter
    · subst hk
      rw [if_pos rfl, if_pos rfl]
      exact hbooks
    · -- the state of another client says nothing about this reference
      have hzero : ∀ st, grHeldByClient (c := c) k' st ref = 0 := by
        intro st
        have hne : ref ≠ .client k' := by
          rintro rfl
          exact hk rfl
        simp [grHeldByClient, ite_apply, hne]
      rw [hzero, hzero] at hbooks
      rw [if_neg hk, if_neg hk]
      exact hbooks

/-! ## 7. Who an answer is for -/

/-- Nothing among these events and in the slots of these servers is about the client `k`. -/
structure GrAlone (server : ServerId c → GrServerState c)
    (events : Multiset ((ServerId c ⊕ ClientId c) × GrEvent c)) (k : ClientId c) : Prop where
  events : ∀ x ∈ events, grRefs x (.client k) = 0
  get : ∀ s id getState, ptrArrayGet (server s).getStates id = some getState → getState.client ≠ k
  put : ∀ s id putState, ptrArrayGet (server s).putStates id = some putState → putState.client ≠ k
  rotx : ∀ s id rotx, ptrArrayGet (server s).rotxStates id = some rotx → rotx.client ≠ k

theorem grHeld_client_nonneg (s : ServerId c) (st : GrServerState c) (k : ClientId c) :
    0 ≤ grHeld s st (.client k) := by
  rw [grHeld_client]
  refine add_nonneg (add_nonneg ?_ ?_) ?_ <;>
    exact ptrArraySum_nonneg fun _ _ _ => GrRef.one_nonneg _ _

/-- Books without anything for a client. -/
theorem GrAlone.of_sum {server : ServerId c → GrServerState c}
    {events : Multiset ((ServerId c ⊕ ClientId c) × GrEvent c)} {k : ClientId c}
    (h : (events.map fun x => grRefs x (.client k)).sum +
      ∑ s, grHeld s (server s) (.client k) ≤ 0) :
    GrAlone server events k := by
  have hev := sum_grRefs_nonneg events (.client k)
  have hheld : ∀ s, grHeld s (server s) (.client k) ≤ 0 := by
    intro s
    have hle := Finset.single_le_sum (f := fun s => grHeld s (server s) (.client k))
      (fun s _ => grHeld_client_nonneg s (server s) k) (Finset.mem_univ s)
    omega
  have hsum : 0 ≤ ∑ s, grHeld s (server s) (.client k) :=
    Finset.sum_nonneg fun s _ => grHeld_client_nonneg s (server s) k
  have hone : ∀ {α : Type} (f : α → ClientId c) (a : PtrArray α),
      0 ≤ ptrArraySum (fun _ x => (GrRef.client (f x)).one (.client k)) a :=
    fun f a => ptrArraySum_nonneg fun _ _ _ => GrRef.one_nonneg _ _
  have hslot : ∀ {α : Type} (f : α → ClientId c) {a : PtrArray α} {id : ℕ} {x : α},
      ptrArraySum (fun _ x => (GrRef.client (f x)).one (.client k)) a ≤ 0 →
      ptrArrayGet a id = some x → f x ≠ k := by
    intro α f a id x ha hx hk
    have hle := le_ptrArraySum (f := fun _ x => (GrRef.client (f x)).one (.client k))
      (fun _ _ _ => GrRef.one_nonneg _ _) hx
    rw [hk, GrRef.one_self] at hle
    omega
  refine ⟨fun x hx => ?_, fun s id x hx => ?_, fun s id x hx => ?_, fun s id x hx => ?_⟩
  · have hle := Multiset.single_le_sum (s := events.map fun x => grRefs x (.client k))
      (fun y hy => by
        obtain ⟨x, -, rfl⟩ := Multiset.mem_map.mp hy
        exact grRefs_nonneg x _) _ (Multiset.mem_map_of_mem _ hx)
    exact le_antisymm (by omega) (grRefs_nonneg x _)
  all_goals
    have hs := hheld s
    rw [grHeld_client] at hs
    have hget := hone GrGetState.client (server s).getStates
    have hput := hone GrPutState.client (server s).putStates
    have hrotx := hone GrRotxState.client (server s).rotxStates
  · exact hslot GrGetState.client (by omega) hx
  · exact hslot GrPutState.client (by omega) hx
  · exact hslot GrRotxState.client (by omega) hx

/-- **An answer that has reached its client is all there is about the client.** -/
theorem gr_answered (hr : Mail.Run (grProgram c) Q (grWorld setup).config.mail M h)
    {k : ClientId c} {e : GrEvent c} {mail : Multiset ((ServerId c ⊕ ClientId c) × GrEvent c)}
    (hev : M.events = (.inr k, e) ::ₘ mail) (he : grRefs (.inr k, e) (.client k) = 1) :
    GrAlone M.server mail k := by
  have htotal := gr_balanced hr (.client k)
  rw [grTotal, Mail.total, hev, Multiset.map_cons, Multiset.sum_cons, he] at htotal
  have hclient : -1 ≤ grHeldByClient k (M.client k) (.client k) := by
    rw [grHeldByClient]
    split <;> simp
  refine GrAlone.of_sum ?_
  simp only [GrRef.waiter] at htotal
  omega

/-- **When a client asks for something, there is nothing else about it.** -/
theorem gr_asks_alone (hr : Mail.Run (grProgram c) Q (grWorld setup).config.mail M h)
    {k : ClientId c} {e : GrEvent c} {mail : Multiset ((ServerId c ⊕ ClientId c) × GrEvent c)}
    (hev : M.events = (.inr k, e) ::ₘ mail) {st' : GrClientState c}
    (hlearn : GrLearn k (M.client k) e st') (hnone : st'.requestTime = none) :
    GrAlone M.server mail k := by
  cases hlearn with
  | get response => exact gr_answered hr hev (GrRef.one_self _)
  | put response => exact gr_answered hr hev (GrRef.one_self _)
  | rotx response => exact gr_answered hr hev (GrRef.one_self _)
  | tick =>
    have htotal := gr_balanced hr (.client k)
    rw [grTotal, Mail.total, hev, Multiset.map_cons, Multiset.sum_cons] at htotal
    have hclient : grHeldByClient k (M.client k) = 0 := if_pos hnone
    have htick : grRefs (.inr k, GrEvent.clientTick) = (0 : GrRef c → ℤ) := rfl
    refine GrAlone.of_sum ?_
    simp only [GrRef.waiter, hclient, htick, Pi.zero_apply, zero_add, add_zero] at htotal
    exact htotal.le

end Runs

end CCSim
