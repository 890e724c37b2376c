/-
# Who works on which request (`grv`)

The counterpart of `Gr/Requests.lean`.  A request of a client is always in one place: in a message,
in a slot of `put_states` or `rotx_states`, or in the answer, and it is of the same kind all the way.
What a client has asked for and was not answered yet is read off the past (`grvRequested`); the
references to it are what is owed for this (`grv_ledger`), and a slot of `put_states` is referred to
exactly when it is in use.
-/
import CCSim.Grv.Coverage
import CCSim.Grv.Work
import CCSim.Lib.Gather
import CCSim.Routes
import Mathlib.Algebra.BigOperators.Pi
import Mathlib.Algebra.Order.BigOperators.Group.Finset

namespace CCSim

variable {c : Cluster}

abbrev GrvMail (c : Cluster) :=
  Mail (ServerId c) (ClientId c) (GrvEvent c) (GrvServerState c) (GrvClientState c)

/-! ## 1. References -/

/-- What an event can refer to: a client that waits for an answer of a kind, and a slot. -/
inductive GrvRef (c : Cluster)
  | client (k : ClientId c) (kind : RequestKind)
  | put (s : ServerId c) (id : ℕ)
  deriving DecidableEq

/-- One reference. -/
def GrvRef.one (ref : GrvRef c) : GrvRef c → ℤ := Pi.single ref 1

@[simp]
theorem GrvRef.one_self (ref : GrvRef c) : ref.one ref = 1 := by simp [GrvRef.one]

@[simp]
theorem GrvRef.one_of_ne {ref ref' : GrvRef c} (h : ref' ≠ ref) : ref.one ref' = 0 := by
  simp [GrvRef.one, h]

theorem GrvRef.one_nonneg (ref ref' : GrvRef c) : 0 ≤ ref.one ref' := by
  rw [GrvRef.one, Pi.single_apply]
  split <;> decide

/-- The references of an event at its place.  An answer that has reached a client refers to this
client. -/
def grvRefs : (ServerId c ⊕ ClientId c) × GrvEvent c → GrvRef c → ℤ
  | (_, .getRequest request) => (GrvRef.client request.client .get).one
  | (_, .getRequestLocked request) => (GrvRef.client request.client .get).one
  | (_, .getRequestUnlocked request) => (GrvRef.client request.client .get).one
  | (.inl _, .getResponse response) => (GrvRef.client response.client .get).one
  | (.inr k, .getResponse _) => (GrvRef.client k .get).one
  | (_, .putRequest request) => (GrvRef.client request.client .put).one
  | (.inl s, .putRequestLocked id) => (GrvRef.put s id).one
  | (.inl s, .putRequestUnlocked id) => (GrvRef.put s id).one
  | (.inl _, .putResponse response) => (GrvRef.client response.client .put).one
  | (.inr k, .putResponse _) => (GrvRef.client k .put).one
  | (_, .rotxRequest request) => (GrvRef.client request.client .rotx).one
  | (_, .rotxRequestLocked request) => (GrvRef.client request.client .rotx).one
  | (_, .rotxRequestUnlocked request) => (GrvRef.client request.client .rotx).one
  | (.inr k, .rotxResponse _) => (GrvRef.client k .rotx).one
  | _ => 0

/-- What a server holds: the clients whose requests are in its slots, less the references to these
slots that have to be in flight. -/
def grvHeld (s : ServerId c) (st : GrvServerState c) : GrvRef c → ℤ :=
  ptrArraySum (fun id putState => (GrvRef.client putState.client .put).one - (GrvRef.put s id).one)
      st.putStates +
    ptrArraySum (fun _ rotx => (GrvRef.client rotx.client .rotx).one) st.rotxStates

/-! ## 2. What the slots say -/

/-- A slot is answered to its client along a link, and a transaction is at the server of its
client. -/
structure GrvFormed (s : ServerId c) (st : GrvServerState c) : Prop where
  put : ∀ id putState, ptrArrayGet st.putStates id = some putState →
    RepliesTo s putState.client putState.destination
  rotx : ∀ id rotx, ptrArrayGet st.rotxStates id = some rotx → rotx.client.server = s

/-- Requests and answers take the right way, and a request for a slice is at the server of the same
replica that holds its keys. -/
def GrvAddressed : (ServerId c ⊕ ClientId c) × GrvEvent c → Prop
  | (.inl s, .getRequest request) => Routed s request.client request.proxy request.key
  | (.inl s, .getRequestLocked request) => Routed s request.client request.proxy request.key
  | (.inl s, .getRequestUnlocked request) => Routed s request.client request.proxy request.key
  | (.inl s, .getResponse response) => response.client.server = s
  | (.inr k, .getResponse response) => response.client = k
  | (.inl s, .putRequest request) => Routed s request.client request.proxy request.key
  | (.inl s, .putResponse response) => response.client.server = s
  | (.inr k, .putResponse response) => response.client = k
  | (.inl s, .rotxRequest request) => request.client.server = s
  | (.inl s, .rotxRequestLocked request) => request.client.server = s
  | (.inl s, .rotxRequestUnlocked request) => request.client.server = s
  | (.inl s, .sliceRequest request) => request.fromLpid.1 = s.1
  | (.inl s, .sliceRequestLocked request) => request.fromLpid.1 = s.1
  | (.inl s, .sliceRequestUnlocked request) => request.fromLpid.1 = s.1
  | _ => True

theorem grvAddressed_other {x : (ServerId c ⊕ ClientId c) × GrvEvent c} (h : x.2.Other) :
    GrvAddressed x := by
  obtain ⟨p, e⟩ := x
  cases e <;> first | exact h.elim | (cases p <;> trivial)

/-! ## 3. It is passed on -/

theorem GrvFormed.of_eq {s : ServerId c} {st st' : GrvServerState c} (h : GrvFormed s st)
    (hput : st'.putStates = st.putStates) (hrotx : st'.rotxStates = st.rotxStates) :
    GrvFormed s st' := by
  refine ⟨?_, ?_⟩
  · rw [hput]
    exact h.put
  · rw [hrotx]
    exact h.rotx

/-- An answer goes to its client, or to the server of its client. -/
theorem RepliesTo.addressed {s : ServerId c} {k : ClientId c} {lpid : Lpid c} {e : GrvEvent c}
    (h : RepliesTo s k lpid) (hs : GrvAddressed (.inl k.server, e)) (hk : GrvAddressed (.inr k, e)) :
    GrvAddressed ((grvSend lpid e).place s, (grvSend lpid e).event) := by
  rcases h with ⟨rfl, -⟩ | ⟨rfl, -⟩
  · exact hk
  · exact hs

/-- **Every handler passes on what is true of requests.** -/
theorem GrvWork.formed {s : ServerId c} {st : GrvServerState c} {e : GrvEvent c} {r : GrvOutcome c}
    (hw : GrvWork s st e r) (hst : GrvFormed s st) (he : GrvAddressed (.inl s, e)) :
    GrvFormed s r.state ∧ ∀ x ∈ r.placed s, GrvAddressed x := by
  cases hw with
  | other _ hput hrotx hnew =>
    exact ⟨hst.of_eq hput hrotx, fun x hx => grvAddressed_other (hnew x hx)⟩
  | getForward hproxy hcont =>
    refine ⟨hst.of_eq rfl rfl, Outcome.forall_placed (List.forall_mem_singleton.mpr ?_) ?_⟩
    · rw [GrvAddressed, hproxy] at he
      exact he.forward
    · exact fun e he => grvAddressed_other (x := (.inl s, e)) (hcont e he)
  | getLock =>
    refine ⟨hst, Outcome.forall_placed (List.forall_mem_nil _) ?_⟩
    rintro _ ⟨⟩
    exact he
  | getLocked =>
    refine ⟨hst.of_eq rfl rfl, Outcome.forall_placed (List.forall_mem_nil _) ?_⟩
    rintro _ ⟨⟩
    exact he
  | @getServe _ request hevent =>
    refine ⟨hst, Outcome.forall_placed (List.forall_mem_singleton.mpr ?_) (by rintro _ ⟨⟩)⟩
    have hrouted : Routed s request.client request.proxy request.key := by
      rcases hevent with rfl | rfl <;> exact he
    exact hrouted.repliesTo.addressed rfl rfl
  | getResponse =>
    exact ⟨hst, Outcome.forall_placed (List.forall_mem_singleton.mpr rfl) (by rintro _ ⟨⟩)⟩
  | putForward hproxy =>
    refine ⟨hst, Outcome.forall_placed (List.forall_mem_singleton.mpr ?_) (by rintro _ ⟨⟩)⟩
    rw [GrvAddressed, hproxy] at he
    exact he.forward
  | putDefer =>
    exact ⟨hst, Outcome.forall_placed (List.forall_mem_singleton.mpr he) (by rintro _ ⟨⟩)⟩
  | putOpen =>
    refine ⟨⟨forall_ptrArrayPut hst.put (Routed.repliesTo he), hst.rotx⟩,
      Outcome.forall_placed (List.forall_mem_nil _) ?_⟩
    rintro _ ⟨⟩
    trivial
  | @putLocked id putState hput =>
    refine ⟨⟨forall_ptrArraySet hst.put hput ?_, hst.rotx⟩,
      Outcome.forall_placed (List.forall_mem_nil _) ?_⟩
    · rintro _ ⟨⟩
      exact hst.put id putState hput
    · rintro _ ⟨⟩
      trivial
  | @putUnlocked id putState stamp hput =>
    refine ⟨⟨forall_ptrArraySet hst.put hput (by rintro _ ⟨⟩), hst.rotx⟩,
      Outcome.forall_placed (List.forall_mem_cons.mpr ⟨?_, fun o ho => ?_⟩) (by rintro _ ⟨⟩)⟩
    · exact (hst.put id putState hput).addressed rfl rfl
    · split at ho
      · cases ho
      · obtain ⟨s', -, rfl⟩ := List.mem_map.mp ho
        trivial
  | putResponse =>
    exact ⟨hst, Outcome.forall_placed (List.forall_mem_singleton.mpr rfl) (by rintro _ ⟨⟩)⟩
  | rotxLock =>
    refine ⟨hst, Outcome.forall_placed (List.forall_mem_nil _) ?_⟩
    rintro _ ⟨⟩
    exact he
  | rotxLocked =>
    refine ⟨hst.of_eq rfl rfl, Outcome.forall_placed (List.forall_mem_nil _) ?_⟩
    rintro _ ⟨⟩
    exact he
  | @rotxOpen _ request hevent =>
    have hclient : request.client.server = s := by rcases hevent with rfl | rfl <;> exact he
    refine ⟨⟨hst.put, forall_ptrArrayPut hst.rotx hclient⟩,
      Outcome.forall_placed (fun o ho => ?_) (by rintro _ ⟨⟩)⟩
    obtain ⟨p, -, ho⟩ := List.mem_filterMap.mp ho
    split at ho
    · cases ho
    · cases ho
      rfl
  | sliceDefer =>
    exact ⟨hst, Outcome.forall_placed (List.forall_mem_singleton.mpr he) (by rintro _ ⟨⟩)⟩
  | sliceLock =>
    refine ⟨hst, Outcome.forall_placed (List.forall_mem_nil _) ?_⟩
    rintro _ ⟨⟩
    exact he
  | sliceLocked =>
    refine ⟨hst.of_eq rfl rfl, Outcome.forall_placed (List.forall_mem_nil _) ?_⟩
    rintro _ ⟨⟩
    exact he
  | sliceServe =>
    exact ⟨hst, Outcome.forall_placed (List.forall_mem_singleton.mpr trivial) (by rintro _ ⟨⟩)⟩
  | @receive slice rotx hget =>
    refine ⟨⟨hst.put, forall_ptrArraySet hst.rotx hget ?_⟩,
      Outcome.forall_placed (List.forall_mem_nil _) (by rintro _ ⟨⟩)⟩
    rintro _ ⟨⟩
    rw [grvReceiveSlice_client]
    exact hst.rotx _ rotx hget
  | receiveLast hget =>
    exact ⟨⟨hst.put, forall_ptrArraySet hst.rotx hget (by rintro _ ⟨⟩)⟩,
      Outcome.forall_placed (List.forall_mem_singleton.mpr trivial) (by rintro _ ⟨⟩)⟩

/-! ## 4. Every server keeps the books -/

theorem grvRefs_other {x : (ServerId c ⊕ ClientId c) × GrvEvent c} (h : x.2.Other) :
    grvRefs x = 0 := by
  obtain ⟨p, e⟩ := x
  cases e <;> first | exact h.elim | rfl

/-- What refers to nothing adds nothing. -/
theorem sum_grvRefs_eq_zero {s : ServerId c} {outs : List (GrvOut c)}
    (h : ∀ o ∈ outs, grvRefs (o.place s, o.event) = 0) :
    (outs.map fun o => grvRefs (o.place s, o.event)).sum = 0 := by
  refine List.sum_eq_zero fun y hy => ?_
  obtain ⟨o, ho, rfl⟩ := List.mem_map.mp hy
  exact h o ho

/-- The reference of what a handler sends back. -/
theorem RepliesTo.refs {s : ServerId c} {k : ClientId c} {lpid : Lpid c} {e : GrvEvent c}
    {kind : RequestKind} (h : RepliesTo s k lpid)
    (hs : grvRefs (.inl k.server, e) = (GrvRef.client k kind).one)
    (hk : grvRefs (.inr k, e) = (GrvRef.client k kind).one) :
    grvRefs ((grvSend lpid e).place s, (grvSend lpid e).event) = (GrvRef.client k kind).one := by
  rcases h with ⟨rfl, -⟩ | ⟨rfl, -⟩
  · exact hk
  · exact hs

/-- **Every handler keeps the books.** -/
theorem GrvWork.books {s : ServerId c} {st : GrvServerState c} {e : GrvEvent c} {r : GrvOutcome c}
    (hw : GrvWork s st e r) (hst : GrvFormed s st) (he : GrvAddressed (.inl s, e)) :
    ((r.placed s).map grvRefs).sum + grvHeld s r.state = grvRefs (.inl s, e) + grvHeld s st := by
  cases hw with
  | other hevent hput hrotx hnew =>
    have hzero : ((r.placed s).map grvRefs).sum = 0 := by
      refine List.sum_eq_zero fun y hy => ?_
      obtain ⟨x, hx, rfl⟩ := List.mem_map.mp hy
      exact grvRefs_other (hnew x hx)
    rw [hzero, grvHeld, grvHeld, hput, hrotx, grvRefs_other (x := (.inl s, e)) hevent]
  | @getForward request cont hproxy hcont =>
    have hnone : cont.event?.elim 0 (fun e => grvRefs (.inl s, e)) = (0 : GrvRef c → ℤ) := by
      cases hce : cont.event? with
      | none => rfl
      | some e => exact grvRefs_other (x := (.inl s, e)) (hcont e hce)
    simp only [Outcome.sum_placed, hnone, List.map_cons, List.map_nil, List.sum_cons, List.sum_nil,
      Out.place, Out.event, grvHeld, grvUpdateGstVector]
    simp only [grvRefs]
    abel
  | getLock =>
    simp only [Outcome.sum_placed, List.map_nil, List.sum_nil, Cont.event?, Option.elim_some,
      grvRefs]
    abel
  | getLocked =>
    simp only [Outcome.sum_placed, List.map_nil, List.sum_nil, Cont.event?, Option.elim_some,
      grvRefs, grvHeld, grvUpdateGstVector]
    abel
  | @getServe _ request hevent =>
    have hrouted : Routed s request.client request.proxy request.key := by
      rcases hevent with rfl | rfl <;> exact he
    have hown : grvRefs (.inl s, e) = (GrvRef.client request.client .get).one := by
      rcases hevent with rfl | rfl <;> rfl
    have hsend := hrouted.repliesTo.refs (e := .getResponse (grvGetAnswer s st request)) rfl rfl
    simp only [Outcome.sum_placed, List.map_cons, List.map_nil, List.sum_cons, List.sum_nil,
      Cont.event?, Option.elim_none, hsend, hown]
    abel
  | getResponse =>
    simp only [Outcome.sum_placed, List.map_cons, List.map_nil, List.sum_cons, List.sum_nil,
      Cont.event?, Option.elim_none, Out.place, Out.event, grvRefs]
    abel
  | putForward =>
    simp only [Outcome.sum_placed, List.map_cons, List.map_nil, List.sum_cons, List.sum_nil,
      Cont.event?, Option.elim_none, Out.place, Out.event, grvRefs]
    abel
  | putDefer =>
    simp only [Outcome.sum_placed, List.map_cons, List.map_nil, List.sum_cons, List.sum_nil,
      Cont.event?, Option.elim_none, Out.place, Out.event, grvRefs]
    abel
  | putOpen =>
    simp only [Outcome.sum_placed, grvHeld, ptrArraySum_put, List.map_nil, List.sum_nil,
      Cont.event?, Option.elim_some, grvRefs, GrvPutRequest.state]
    abel
  | @putLocked id putState hput =>
    simp only [Outcome.sum_placed, grvPutOutcome, grvHeld, ptrArraySum_set _ hput, List.map_nil,
      List.sum_nil, Cont.event?, Option.elim_some, grvRefs]
    abel
  | @putUnlocked id putState stamp hput =>
    have hsend := (hst.put id putState hput).refs
      (e := .putResponse (grvPutAnswer s putState stamp)) rfl rfl
    have hupdates : ((if stamp.discarded then []
        else grvReplicateValue s (grvPutUpdate s putState stamp)).map
          fun o : GrvOut c => grvRefs (o.place s, o.event)).sum = 0 := by
      refine sum_grvRefs_eq_zero fun o ho => ?_
      split at ho
      · cases ho
      · obtain ⟨s', -, rfl⟩ := List.mem_map.mp ho
        rfl
    simp only [Outcome.sum_placed, grvHeld, ptrArraySum_set _ hput, List.map_cons, hupdates,
      List.sum_cons, Cont.event?, Option.elim_none, hsend]
    simp only [grvRefs]
    abel
  | putResponse =>
    simp only [Outcome.sum_placed, List.map_cons, List.map_nil, List.sum_cons, List.sum_nil,
      Cont.event?, Option.elim_none, Out.place, Out.event, grvRefs]
    abel
  | rotxLock =>
    simp only [Outcome.sum_placed, List.map_nil, List.sum_nil, Cont.event?, Option.elim_some,
      grvRefs]
    abel
  | rotxLocked =>
    simp only [Outcome.sum_placed, List.map_nil, List.sum_nil, Cont.event?, Option.elim_some,
      grvRefs, grvHeld, grvUpdateGstVector]
    abel
  | @rotxOpen _ request hevent =>
    have hown : grvRefs (.inl s, e) = (GrvRef.client request.client .rotx).one := by
      rcases hevent with rfl | rfl <;> rfl
    have hslices : ((grvSliceRequests s st request).map
        fun o => grvRefs (o.place s, o.event)).sum = 0 := by
      refine sum_grvRefs_eq_zero fun o ho => ?_
      obtain ⟨p, -, ho⟩ := List.mem_filterMap.mp ho
      split at ho
      · cases ho
      · cases ho
        rfl
    simp only [Outcome.sum_placed, hslices, grvHeld, ptrArraySum_put, Cont.event?,
      Option.elim_none, hown, GrvRotxRequest.state]
    abel
  | sliceDefer =>
    simp only [Outcome.sum_placed, List.map_cons, List.map_nil, List.sum_cons, List.sum_nil,
      Cont.event?, Option.elim_none, Out.place, Out.event, grvRefs]
    abel
  | sliceLock =>
    simp only [Outcome.sum_placed, List.map_nil, List.sum_nil, Cont.event?, Option.elim_some,
      grvRefs]
    abel
  | sliceLocked =>
    simp only [Outcome.sum_placed, List.map_nil, List.sum_nil, Cont.event?, Option.elim_some,
      grvRefs, grvHeld, grvUpdateGstVector]
    abel
  | sliceServe hevent =>
    have hnone : grvRefs (.inl s, e) = 0 := by rcases hevent with rfl | rfl <;> rfl
    simp only [Outcome.sum_placed, List.map_cons, List.map_nil, List.sum_cons, List.sum_nil,
      Cont.event?, Option.elim_none, Out.place, Out.event, hnone]
    simp only [grvRefs]
    abel
  | receive hget =>
    simp only [Outcome.sum_placed, grvHeld, ptrArraySum_set _ hget, List.map_nil, List.sum_nil,
      Cont.event?, Option.elim_none, Option.elim_some, grvReceiveSlice_client, grvRefs]
    abel
  | receiveLast hget =>
    simp only [Outcome.sum_placed, grvHeld, ptrArraySum_set _ hget, List.map_cons, List.map_nil,
      List.sum_cons, List.sum_nil, Cont.event?, Option.elim_none, Out.place, Out.event]
    simp only [grvRefs]
    abel

/-! ## 5. What clients have asked for -/

/-- The kind of request that an event is, and the one that it answers. -/
def GrvEvent.requestKind : GrvEvent c → Option RequestKind
  | .getRequest _ => some .get
  | .putRequest _ => some .put
  | .rotxRequest _ => some .rotx
  | _ => none

def GrvEvent.responseKind : GrvEvent c → Option RequestKind
  | .getResponse _ => some .get
  | .putResponse _ => some .put
  | .rotxResponse _ => some .rotx
  | _ => none

/-- The requests that a client makes in a handler call. -/
def grvRequests (k : ClientId c) : GrvAct c → List RequestKind
  | .client k' _ _ _ r => if k' = k then r.2.filterMap fun o => o.event.requestKind else []
  | .server _ _ _ _ _ => []

/-- The answers that a client receives in a handler call. -/
def grvResponses (k : ClientId c) : GrvAct c → List RequestKind
  | .client k' _ e _ _ => if k' = k then e.responseKind.toList else []
  | .server _ _ _ _ _ => []

/-- What a client has asked for and has not been answered yet. -/
def grvRequested (k : ClientId c) : List (GrvAct c) → Option RequestKind :=
  pending (fun a => (grvRequests k a).head?) fun a => !(grvResponses k a).isEmpty

/-- A client that waits for an answer is owed one reference. -/
def grvOwed (h : List (GrvAct c)) : GrvRef c → ℤ
  | .client k kind => if grvRequested k h = some kind then 1 else 0
  | .put _ _ => 0

/-- What a client is owed that has asked for this. -/
def GrvRef.owed (k : ClientId c) (asked : Option RequestKind) : GrvRef c → ℤ :=
  asked.elim 0 fun kind => (GrvRef.client k kind).one

section Clients

variable {k k' : ClientId c} {t : ℚ} {st : GrvClientState c} {e : GrvEvent c}
  {r : GrvClientState c × List (GrvOut c)} {h : List (GrvAct c)}

/-- Another client changes nothing. -/
theorem grvRequested_other (hk : k' ≠ k) :
    grvRequested k (.client k' t e st r :: h) = grvRequested k h :=
  pending_of_neither (by simp [grvRequests, hk]) (by simp [grvResponses, hk])

/-- What a client learns is an answer, or it is idle. -/
theorem GrvLearn.responseKind {st' : GrvClientState c} (hl : GrvLearn k st e st') :
    e = .clientTick ∧ st' = st ∨ ∃ kind, e.responseKind = some kind ∧
      grvRefs (.inr k, e) = (GrvRef.client k kind).one ∧ st'.requestTime = none := by
  cases hl with
  | get response hst => exact .inr ⟨.get, rfl, rfl, hst⟩
  | put response hst => exact .inr ⟨.put, rfl, rfl, hst⟩
  | rotx response hst => exact .inr ⟨.rotx, rfl, rfl, hst⟩
  | tick => exact .inl ⟨rfl, rfl⟩

/-- What a client sends is one request, or none. -/
theorem GrvSends.requestKind {st' : GrvClientState c} (hs : GrvSends k st' r) :
    ((placedOfClient k r.2).map grvRefs).sum = 0 ∧ r.1.requestTime = st'.requestTime ∧
        r.2.filterMap (fun o => o.event.requestKind) = [] ∨
      ∃ kind, ((placedOfClient k r.2).map grvRefs).sum = (GrvRef.client k kind).one ∧
        st'.requestTime = none ∧ r.1.requestTime ≠ none ∧
          r.2.filterMap (fun o => o.event.requestKind) = [kind] := by
  cases hs with
  | nothing => exact .inl ⟨rfl, rfl, rfl⟩
  | tick delay => exact .inl ⟨rfl, rfl, rfl⟩
  | request hidle hbusy hne hask =>
    refine .inr ?_
    cases hask with
    | get key => exact ⟨.get, add_zero _, hidle, hbusy, rfl⟩
    | put key value => exact ⟨.put, add_zero _, hidle, hbusy, rfl⟩
    | rotx keys => exact ⟨.rotx, add_zero _, hidle, hbusy, rfl⟩

/-- A client changes what it is owed itself. -/
theorem grvOwed_client : grvOwed (.client k t e st r :: h) + GrvRef.owed k (grvRequested k h) =
    grvOwed h + GrvRef.owed k (grvRequested k (.client k t e st r :: h)) := by
  have hsame : ∀ (h : List (GrvAct c)) kind,
      GrvRef.owed k (grvRequested k h) (.client k kind) = grvOwed h (.client k kind) := by
    intro h kind
    rw [grvOwed]
    cases grvRequested k h with
    | none => rfl
    | some kind' => simp [GrvRef.owed, GrvRef.one, Pi.single_apply, eq_comm]
  have hzero : ∀ (asked : Option RequestKind) {ref : GrvRef c},
      (∀ kind, ref ≠ .client k kind) → GrvRef.owed k asked ref = 0 := by
    intro asked ref hne
    cases asked with
    | none => rfl
    | some kind => exact GrvRef.one_of_ne (hne kind)
  funext ref
  rw [Pi.add_apply, Pi.add_apply]
  cases ref with
  | client k' kind =>
    by_cases hk : k' = k
    · subst hk
      rw [hsame, hsame, add_comm]
    · rw [hzero _ (by rintro _ ⟨⟩; exact hk rfl), hzero _ (by rintro _ ⟨⟩; exact hk rfl), grvOwed,
        grvOwed, grvRequested_other (Ne.symm hk)]
  | put s id => rw [hzero _ (by rintro _ ⟨⟩), hzero _ (by rintro _ ⟨⟩), grvOwed, grvOwed]

/-- How what a client has asked for changes. -/
theorem grvRequested_client :
    grvRequested k (.client k t e st r :: h) =
      ((r.2.filterMap fun o => o.event.requestKind).head?).or
        (if e.responseKind.isSome then none else grvRequested k h) := by
  simp only [grvRequested, pending, grvRequests, grvResponses, if_true]
  cases e.responseKind <;> rfl

end Clients

/-! ## 6. Every run -/

theorem grvRefs_nonneg (x : (ServerId c ⊕ ClientId c) × GrvEvent c) (ref : GrvRef c) :
    0 ≤ grvRefs x ref := by
  unfold grvRefs
  split <;> first | exact GrvRef.one_nonneg _ _ | exact le_rfl

/-- What a server holds for a client. -/
theorem grvHeld_client (s : ServerId c) (st : GrvServerState c) (k : ClientId c)
    (kind : RequestKind) : grvHeld s st (.client k kind) =
      ptrArraySum (fun _ putState => (GrvRef.client putState.client .put).one (.client k kind))
          st.putStates +
        ptrArraySum (fun _ rotx => (GrvRef.client rotx.client .rotx).one (.client k kind))
          st.rotxStates := by
  simp [grvHeld, ptrArraySum_apply]

theorem grvHeld_client_nonneg (s : ServerId c) (st : GrvServerState c) (k : ClientId c)
    (kind : RequestKind) : 0 ≤ grvHeld s st (.client k kind) := by
  rw [grvHeld_client]
  refine add_nonneg ?_ ?_ <;> exact ptrArraySum_nonneg fun _ _ _ => GrvRef.one_nonneg _ _

/-- A slot in use owes one reference. -/
theorem grvHeld_put (s : ServerId c) (st : GrvServerState c) (id : ℕ) :
    grvHeld s st (.put s id) = (ptrArrayGet st.putStates id).elim 0 fun _ => -1 := by
  have hsum : ptrArraySum (fun i (putState : GrvPutState c) =>
      (GrvRef.client putState.client .put).one (.put s id) - (GrvRef.put s i).one (.put s id))
        st.putStates = (ptrArrayGet st.putStates id).elim 0 fun _ => -1 := by
    rw [← ptrArraySum_single]
    refine ptrArraySum_congr fun i putState _ => ?_
    by_cases hi : i = id
    · simp [hi]
    · simp [hi, Ne.symm hi]
  simp only [grvHeld, Pi.add_apply, ptrArraySum_apply, Pi.sub_apply, hsum]
  simp [ptrArraySum_zero]

/-- Nobody else holds something for the slots of a server. -/
theorem grvHeld_elsewhere {s s' : ServerId c} (hs : s' ≠ s) (st : GrvServerState c) (id : ℕ) :
    grvHeld s' st (.put s id) = 0 := by
  simp [grvHeld, ptrArraySum_apply, ptrArraySum_zero, Ne.symm hs]

section Runs

variable {setup : Setup c (GrvEvent c)} {Q : GrvAct c → Prop} {M : GrvMail c} {h : List (GrvAct c)}

theorem grv_formed (hr : Mail.Run (grvProgram c) Q (grvWorld setup).config.mail M h) :
    (∀ s, GrvFormed s (M.server s)) ∧ ∀ x ∈ M.events, GrvAddressed x := by
  have hflow := hr.flow GrvFormed (fun _ _ => True) GrvAddressed ?_ ?_ ?_ (fun _ => trivial) ?_
  · exact ⟨hflow.1, hflow.2.2⟩
  · intro s t st e r hserve hst he
    have hst' : GrvFormed s { st with now := t, clock := c.clock s t } := hst.of_eq rfl rfl
    exact (grvProcessEvent_work (grvServerProcessEvent_some hserve)).formed hst' he
  · intro k t decision st e r hclient _ _
    obtain ⟨st', -, -, hsends⟩ := grvClientProcessEvent_some hclient
    refine ⟨trivial, ?_⟩
    cases hsends with
    | nothing => exact List.forall_mem_nil _
    | tick delay => exact List.forall_mem_singleton.mpr trivial
    | request _ _ _ hask =>
      refine List.forall_mem_singleton.mpr ?_
      cases hask <;> rfl
  · exact fun s => ⟨by rintro id _ ⟨⟩, by rintro id _ ⟨⟩⟩
  · intro x hx
    rcases Setup.mem_mail hx with ⟨s, rfl, -⟩ | ⟨s, rfl⟩ | ⟨k, rfl⟩ <;> trivial

/-- A client is idle when it has been answered everything that it has asked for. -/
theorem grv_idle_iff (hr : Mail.Run (grvProgram c) Q (grvWorld setup).config.mail M h)
    (k : ClientId c) : (M.client k).requestTime = none ↔ grvRequested k h = none := by
  induction hr with
  | nil => exact iff_of_true rfl rfl
  | @cons M M' h a hrun hstep hq ih =>
    cases hstep with
    | serve => exact ih
    | @client k' t decision e r mail hev ht hclient =>
      by_cases hk : k' = k
      · subst hk
        obtain ⟨st', hlearn, -, hsends⟩ := grvClientProcessEvent_some hclient
        rw [Option.toList_some, List.singleton_append, grvRequested_client]
        dsimp only
        rw [Function.update_self]
        rcases hsends.requestKind with ⟨-, hsame, hnil⟩ | ⟨kind, -, -, hbusy, hone⟩
        · rw [hnil, hsame]
          rcases hlearn.responseKind with ⟨rfl, rfl⟩ | ⟨kind, hkind, -, hidle⟩
          · exact ih
          · rw [hkind]
            exact iff_of_true hidle rfl
        · rw [hone]
          exact iff_of_false hbusy (by simp)
      · rw [Option.toList_some, List.singleton_append, grvRequested_other hk]
        dsimp only
        rw [Function.update_of_ne (Ne.symm hk)]
        exact ih
    | wait => exact ih

/-- What refers to a client is owed to it. -/
theorem grvRefs_le_owed (hledger : (M.events.map grvRefs).sum + ∑ s, grvHeld s (M.server s) =
      grvOwed h) {x : (ServerId c ⊕ ClientId c) × GrvEvent c} (hx : x ∈ M.events)
    (k : ClientId c) (kind : RequestKind) :
    grvRefs x (.client k kind) ≤ grvOwed h (.client k kind) := by
  have hat := congrFun hledger (.client k kind)
  rw [Pi.add_apply, Pi.multiset_sum_apply, Multiset.map_map, Finset.sum_apply] at hat
  have hheld : 0 ≤ ∑ s, grvHeld s (M.server s) (.client k kind) :=
    Finset.sum_nonneg fun s _ => grvHeld_client_nonneg s (M.server s) k kind
  have hle := Multiset.single_le_sum (s := M.events.map fun x => grvRefs x (.client k kind))
    (fun y hy => by
      obtain ⟨x, -, rfl⟩ := Multiset.mem_map.mp hy
      exact grvRefs_nonneg x _) _ (Multiset.mem_map_of_mem _ hx)
  rw [← hat]
  exact hle.trans (le_add_of_nonneg_right hheld)

/-- **An answer that has reached its client is to what the client has asked for.** -/
theorem grvRequested_of_response (hledger : (M.events.map grvRefs).sum +
      ∑ s, grvHeld s (M.server s) = grvOwed h) {k : ClientId c} {e : GrvEvent c}
    (hx : (.inr k, e) ∈ M.events) {kind : RequestKind}
    (hrefs : grvRefs (.inr k, e) = (GrvRef.client k kind).one) : grvRequested k h = some kind := by
  have hle := grvRefs_le_owed hledger hx k kind
  rw [hrefs, GrvRef.one_self, grvOwed] at hle
  by_contra hne
  rw [if_neg hne] at hle
  exact absurd hle (by decide)

/-- **The ledger.**  In every state of a run, the references to what clients have asked for and to
the slots of PUTs are those that there have to be. -/
theorem grv_ledger (hr : Mail.Run (grvProgram c) Q (grvWorld setup).config.mail M h) :
    (M.events.map grvRefs).sum + ∑ s, grvHeld s (M.server s) = grvOwed h := by
  refine hr.ledger grvRefs grvHeld grvOwed ?_ ?_ ?_
  · intro M h s t e r hrun hmem _ hserve
    have hformed := grv_formed hrun
    have hst : GrvFormed s { M.server s with now := t, clock := c.clock s t } :=
      (hformed.1 s).of_eq rfl rfl
    refine ⟨(grvProcessEvent_work (grvServerProcessEvent_some hserve)).books hst
      (hformed.2 _ hmem), ?_⟩
    funext ref
    cases ref <;> rfl
  · intro M h k t decision e r hrun hmem hledger hclient
    obtain ⟨st', hlearn, -, hsends⟩ := grvClientProcessEvent_some hclient
    have hidle := grv_idle_iff hrun k
    have howed : grvOwed (.client k t e (M.client k) r :: h) + GrvRef.owed k (grvRequested k h) =
        _ := grvOwed_client
    suffices hbooks : ((placedOfClient k r.2).map grvRefs).sum + GrvRef.owed k (grvRequested k h) =
        grvRefs (.inr k, e) + GrvRef.owed k (grvRequested k (.client k t e (M.client k) r :: h)) by
      rw [← sub_eq_zero] at hbooks howed ⊢
      rw [← sub_eq_zero.mpr (hbooks.trans howed.symm)]
      abel
    rw [grvRequested_client]
    rcases hlearn.responseKind with ⟨rfl, rfl⟩ | ⟨kind, hkind, hrefs, -⟩
    · rcases hsends.requestKind with ⟨hzero, -, hnil⟩ | ⟨kind, hone, hnone, -, hrequest⟩
      · rw [hzero, hnil]
        rfl
      · rw [hone, hrequest, hidle.mp hnone]
        exact (add_zero _).trans (zero_add _).symm
    · rw [hrefs, hkind, grvRequested_of_response hledger hmem hrefs]
      rcases hsends.requestKind with ⟨hzero, -, hnil⟩ | ⟨kind', hone, -, -, hrequest⟩
      · rw [hzero, hnil]
        exact (zero_add _).trans (add_zero _).symm
      · rw [hone, hrequest]
        exact add_comm _ _
  · have hev : ((grvWorld setup).config.mail.events.map grvRefs).sum = 0 := by
      refine Multiset.sum_eq_zero fun y hy => ?_
      obtain ⟨x, hx, rfl⟩ := Multiset.mem_map.mp hy
      rcases Setup.mem_mail hx with ⟨s, rfl, -⟩ | ⟨s, rfl⟩ | ⟨k, rfl⟩ <;> rfl
    have hheld : ∀ s, grvHeld s ((grvWorld setup).config.mail.server s) = 0 := fun s => rfl
    rw [hev, Finset.sum_eq_zero fun s _ => hheld s]
    funext ref
    cases ref <;> rfl

/-- **A slot of a PUT is referred to once while it is in use, and not at all while it is free.** -/
theorem grv_put_refs (hr : Mail.Run (grvProgram c) Q (grvWorld setup).config.mail M h)
    (s : ServerId c) (id : ℕ) : (M.events.map fun x => grvRefs x (.put s id)).sum =
      (ptrArrayGet (M.server s).putStates id).elim 0 fun _ => 1 := by
  have hat := congrFun (grv_ledger hr) (.put s id)
  have hsum : ∑ s', grvHeld s' (M.server s') (.put s id) = grvHeld s (M.server s) (.put s id) :=
    Finset.sum_eq_single s (fun s' _ hs' => grvHeld_elsewhere hs' (M.server s') id)
      fun hs => absurd (Finset.mem_univ s) hs
  rw [Pi.add_apply, Pi.multiset_sum_apply, Multiset.map_map, Finset.sum_apply, hsum, grvHeld_put,
    grvOwed] at hat
  cases hget : ptrArrayGet (M.server s).putStates id with
  | none =>
    rw [hget] at hat
    exact (add_zero _).symm.trans hat
  | some putState =>
    rw [hget] at hat
    exact eq_neg_of_add_eq_zero_left hat

/-- Nothing among these events and in the slots of these servers is about the client `k`. -/
structure GrvAlone (server : ServerId c → GrvServerState c)
    (events : Multiset ((ServerId c ⊕ ClientId c) × GrvEvent c)) (k : ClientId c) : Prop where
  events : ∀ x ∈ events, ∀ kind, grvRefs x (.client k kind) = 0
  put : ∀ s id putState, ptrArrayGet (server s).putStates id = some putState → putState.client ≠ k
  rotx : ∀ s id rotx, ptrArrayGet (server s).rotxStates id = some rotx → rotx.client ≠ k

/-- Books without anything for a client. -/
theorem GrvAlone.of_sum {server : ServerId c → GrvServerState c}
    {events : Multiset ((ServerId c ⊕ ClientId c) × GrvEvent c)} {k : ClientId c}
    (h : ∀ kind, (events.map fun x => grvRefs x (.client k kind)).sum +
      ∑ s, grvHeld s (server s) (.client k kind) ≤ 0) : GrvAlone server events k := by
  have hev : ∀ kind, 0 ≤ (events.map fun x => grvRefs x (.client k kind)).sum := by
    intro kind
    refine Multiset.sum_nonneg fun y hy => ?_
    obtain ⟨x, -, rfl⟩ := Multiset.mem_map.mp hy
    exact grvRefs_nonneg x _
  have hheld : ∀ s kind, grvHeld s (server s) (.client k kind) ≤ 0 := by
    intro s kind
    have hle := Finset.single_le_sum (f := fun s => grvHeld s (server s) (.client k kind))
      (fun s _ => grvHeld_client_nonneg s (server s) k kind) (Finset.mem_univ s)
    exact hle.trans (by have := h kind; have := hev kind; omega)
  have hslot : ∀ {α : Type} (kind : RequestKind) (f : α → ClientId c) {a : PtrArray α} {id : ℕ}
      {x : α}, ptrArraySum (fun _ x => (GrvRef.client (f x) kind).one (.client k kind)) a ≤ 0 →
      ptrArrayGet a id = some x → f x ≠ k := by
    intro α kind f a id x ha hx hk
    have hle := le_ptrArraySum (f := fun _ x => (GrvRef.client (f x) kind).one (.client k kind))
      (fun _ _ _ => GrvRef.one_nonneg _ _) hx
    rw [hk, GrvRef.one_self] at hle
    omega
  have hone : ∀ {α : Type} (f : α → GrvRef c) (a : PtrArray α) (ref : GrvRef c),
      0 ≤ ptrArraySum (fun _ x => (f x).one ref) a :=
    fun f a ref => ptrArraySum_nonneg fun _ _ _ => GrvRef.one_nonneg _ _
  refine ⟨fun x hx kind => ?_, fun s id putState hget => ?_, fun s id rotx hget => ?_⟩
  · have hle := Multiset.single_le_sum (s := events.map fun x => grvRefs x (.client k kind))
      (fun y hy => by
        obtain ⟨x, -, rfl⟩ := Multiset.mem_map.mp hy
        exact grvRefs_nonneg x _) _ (Multiset.mem_map_of_mem _ hx)
    have hsum : 0 ≤ ∑ s, grvHeld s (server s) (.client k kind) :=
      Finset.sum_nonneg fun s _ => grvHeld_client_nonneg s (server s) k kind
    have hzero := h kind
    exact le_antisymm (by omega) (grvRefs_nonneg x _)
  · have hs := hheld s .put
    rw [grvHeld_client] at hs
    have hrotx := hone (fun rotx => .client rotx.client .rotx) (server s).rotxStates
      (.client k .put)
    exact hslot .put GrvPutState.client (by omega) hget
  · have hs := hheld s .rotx
    rw [grvHeld_client] at hs
    have hput := hone (fun putState => .client putState.client .put) (server s).putStates
      (.client k .rotx)
    exact hslot .rotx GrvRotxState.client (by omega) hget

/-- **When a client asks for something, there is nothing else about it.** -/
theorem grv_asks_alone (hr : Mail.Run (grvProgram c) Q (grvWorld setup).config.mail M h)
    {k : ClientId c} {e : GrvEvent c} {mail : Multiset ((ServerId c ⊕ ClientId c) × GrvEvent c)}
    (hev : M.events = (.inr k, e) ::ₘ mail) {st' : GrvClientState c}
    (hlearn : GrvLearn k (M.client k) e st') (hnone : st'.requestTime = none) :
    GrvAlone M.server mail k := by
  have hledger := grv_ledger hr
  have hmem : (.inr k, e) ∈ M.events := by rw [hev]; exact Multiset.mem_cons_self _ _
  -- the event is all that the client is owed
  have howed : ∀ kind, grvRefs (.inr k, e) (.client k kind) = grvOwed h (.client k kind) := by
    intro kind
    rcases hlearn.responseKind with ⟨rfl, rfl⟩ | ⟨kind', -, hrefs, -⟩
    · rw [grvOwed, (grv_idle_iff hr k).mp hnone]
      rfl
    · rw [hrefs, grvOwed, grvRequested_of_response hledger hmem hrefs, GrvRef.one, Pi.single_apply]
      simp [eq_comm]
  refine .of_sum fun kind => ?_
  have hat := congrFun hledger (.client k kind)
  rw [Pi.add_apply, Pi.multiset_sum_apply, Multiset.map_map, Finset.sum_apply, ← howed, hev,
    Multiset.map_cons, Multiset.sum_cons] at hat
  simp only [Function.comp_def] at hat
  omega

end Runs

end CCSim
