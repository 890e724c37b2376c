/-
# Version chains, and what GETs return from them (`gr`)

`gr_put_value` puts a version on top of its chain or discards it.  So a chain has just the versions
that were accepted, the last one first, and their times do not increase towards the end
(`chainOf_eq`, `chainOf_sorted`): the first version that passes a test is the one with the greatest
time among all that pass it, and the last accepted of these (`isNewest_find`).

In a run of the protocol the versions accepted at a server are those of the calls its handlers make
(`gr_store_calls`).  A GET is answered when the server's stable time has reached that of the
request: at once, or from a slot after the lock was held, and the slot is given to no other request
until then (`gr_gets`).
-/
import CCSim.Gr.Answers
import CCSim.Gr.Requests

namespace CCSim

variable {R D : Type}

/-! ## 1. Any puts -/

/-- The store after these calls of `gr_put_value`, the latest first. -/
def storeAfter : List (ℕ × Item R D) → Store R D
  | [] => fun _ => []
  | (key, item) :: puts => (putValue (storeAfter puts) key item).getD (storeAfter puts)

/-- The calls that were accepted. -/
def accepted : List (ℕ × Item R D) → List (ℕ × Item R D)
  | [] => []
  | (key, item) :: puts =>
    if (putValue (storeAfter puts) key item).isSome then (key, item) :: accepted puts
    else accepted puts

/-- The versions of a key among some calls. -/
def versionsOf (key : ℕ) (puts : List (ℕ × Item R D)) : List (Item R D) :=
  puts.filterMap fun put => if put.1 = key then some put.2 else none

variable {puts : List (ℕ × Item R D)} {key : ℕ} {chain : List (Item R D)} {p : Item R D → Bool}
  {x : Item R D}

/-- **A chain has just the accepted versions**, the last one first. -/
theorem chainOf_eq (puts : List (ℕ × Item R D)) (key : ℕ) :
    storeAfter puts key = versionsOf key (accepted puts) := by
  induction puts with
  | nil => rfl
  | cons put puts ih =>
    obtain ⟨key', item⟩ := put
    rw [storeAfter, accepted]
    cases hput : putValue (storeAfter puts) key' item with
    | none => exact ih
    | some store =>
      obtain ⟨rfl, -⟩ := putValue_some hput
      rw [Option.getD_some, if_pos Option.isSome_some, versionsOf, List.filterMap_cons,
        Function.update_apply]
      by_cases hkey : key = key'
      · subst hkey
        rw [if_pos rfl, if_pos rfl, ih]
        rfl
      · rw [if_neg hkey, if_neg (Ne.symm hkey), ih]
        rfl

/-- **A chain is sorted** by its times. -/
theorem chainOf_sorted (puts : List (ℕ × Item R D)) (key : ℕ) :
    (storeAfter puts key).Pairwise fun x y => y.updateTime ≤ x.updateTime := by
  induction puts with
  | nil => exact .nil
  | cons put puts ih =>
    obtain ⟨key', item⟩ := put
    rw [storeAfter]
    cases hput : putValue (storeAfter puts) key' item with
    | none => exact ih
    | some store =>
      obtain ⟨rfl, hhead⟩ := putValue_some hput
      rw [Option.getD_some, Function.update_apply]
      split
      · rename_i hkey
        subst hkey
        refine List.pairwise_cons.mpr ⟨fun y hy => ?_, ih⟩
        -- what is not older than the first version is not older than the others
        cases hchain : storeAfter puts key with
        | nil =>
          rw [hchain] at hy
          cases hy
        | cons z chain =>
          rw [hchain] at hy hhead ih
          rcases List.mem_cons.mp hy with rfl | hy
          · exact hhead y rfl
          · exact ((List.pairwise_cons.mp ih).1 y hy).trans (hhead z rfl)
      · exact ih

/-! ## 2. The newest version that is visible -/

/-- `x` has the greatest time among the versions that pass the test, and is the last accepted of
those which have this time.  The version that was accepted last comes first. -/
def IsNewest (versions : List (Item R D)) (p : Item R D → Bool) (x : Item R D) : Prop :=
  p x ∧ ∃ later before, versions = later ++ x :: before ∧
    (∀ y ∈ later, p y → y.updateTime < x.updateTime) ∧
    ∀ y ∈ before, p y → y.updateTime ≤ x.updateTime

/-- What a walk along a chain comes to is the newest version, or no version passes the test. -/
theorem isNewest_find (hsorted : chain.Pairwise fun x y => y.updateTime ≤ x.updateTime) :
    (∀ x, chain.find? p = some x → IsNewest chain p x) ∧
      (chain.find? p = none → ∀ y ∈ chain, ¬p y) := by
  refine ⟨fun x hx => ?_, fun hnone => ?_⟩
  · obtain ⟨hpx, later, before, rfl, hlater⟩ := List.find?_eq_some_iff_append.mp hx
    obtain ⟨-, hrest, -⟩ := List.pairwise_append.mp hsorted
    refine ⟨hpx, later, before, rfl, fun y hy hpy => ?_, fun y hy _ => ?_⟩
    · have hnot := hlater y hy
      rw [hpy] at hnot
      cases hnot
    · exact (List.pairwise_cons.mp hrest).1 y hy
  · intro y hy
    exact List.find?_eq_none.mp hnone y hy

/-- **What a read returns.** -/
theorem getValueAt_newest (puts : List (ℕ × Item R D)) (key : ℕ) (p : Item R D → Bool) :
    (∀ x, getValueAt (storeAfter puts) key p = some x →
      IsNewest (versionsOf key (accepted puts)) p x) ∧
      (getValueAt (storeAfter puts) key p = none → ∀ y ∈ versionsOf key (accepted puts), ¬p y) := by
  rw [← chainOf_eq]
  exact isNewest_find (chainOf_sorted puts key)

/-! ## 3. The calls of the handlers -/

variable {c : Cluster} {s : ServerId c} {st : GrServerState c} {e : GrEvent c} {r : GrOutcome c}

/-- What a handler calls `gr_put_value` with. -/
def grPutCall (s : ServerId c) (st : GrServerState c) : GrEvent c → Option (Key × GrItem c)
  | .putRequestLocked id =>
    (ptrArrayGet st.putStates id).map fun putState => (putState.key, grPutItem s st putState)
  | .replicaUpdateLocked update => some (update.key, update.item)
  | _ => none

/-- The state a handler of an event at time `t` finds. -/
def GrServerState.at (s : ServerId c) (t : ℚ) (st : GrServerState c) : GrServerState c :=
  { st with now := t, clock := c.clock s t }

/-- The calls of `gr_put_value` at a server, the latest first. -/
def grPutCalls (s : ServerId c) : List (GrAct c) → List (Key × GrItem c)
  | [] => []
  | .server s' t e st _ :: h =>
    if s' = s then (grPutCall s (st.at s t) e).toList ++ grPutCalls s h else grPutCalls s h
  | .client .. :: h => grPutCalls s h

/-- The request that a slot of `get_states` was taken for last. -/
def grOpener (s : ServerId c) (id : ℕ) : List (GrAct c) → Option (GrGetRequest c)
  | [] => none
  | .server s' _ (.getRequest request) st _ :: h =>
    if s' = s ∧ lpidForKey s request.key = s ∧ ptrArrayFree st.getStates = id then some request
    else grOpener s id h
  | _ :: h => grOpener s id h

/-- The request that is answered by a handler of an event at a server: by the direct path at once,
by the lock path from a slot. -/
def grGetAnswering (s : ServerId c) (h : List (GrAct c)) : GrEvent c → Option (GrGetRequest c)
  | .getRequest request => some request
  | .getRequestUnlocked id => grOpener s id h
  | _ => none

/-- Only a PUT and an install change the store. -/
theorem Move.store_eq {rules : UpdateRules (Replica c)} {i : Replica c} {clock : ℚ}
    {role : Role c Unit} {l l' : ReplicaState c Unit}
    {jobs : Multiset (Replication.Job (Stored c Unit) (Replica c) ℚ)}
    (hm : Move rules i clock role l l' jobs) (hput : ∀ id, role ≠ .put id)
    (hinstall : ∀ u, role ≠ .install u) : l'.store = l.store := by
  cases hm with
  | put id => exact absurd rfl (hput id)
  | discard id => exact absurd rfl (hput id)
  | @install _ u => exact absurd rfl (hinstall u)
  | _ => rfl

theorem Move.store_install {rules : UpdateRules (Replica c)} {i : Replica c} {clock : ℚ}
    {u : ReplicaUpdate (Replica c) Unit} {l l' : ReplicaState c Unit}
    {jobs : Multiset (Replication.Job (Stored c Unit) (Replica c) ℚ)}
    (hm : Move rules i clock (.install u) l l' jobs) :
    l'.store = (putValue l.store u.key u.item).getD l.store := by
  cases hm
  rfl

/-- A handler changes the store by its call. -/
theorem grProcessEvent_store (h : grProcessEvent s st e = some r) :
    r.state.store = (grPutCall s st e).elim st.store fun put =>
      (putValue st.store put.1 put.2).getD st.store := by
  obtain ⟨jobs, hmove, -⟩ := (grProcessEvent_moves h).move
  have hsame : (∀ id, e ≠ .putRequestLocked id) → (∀ u, e ≠ .replicaUpdateLocked u) →
      r.state.store = st.store := fun hput hinstall =>
    hmove.store_eq (fun id hrole => hput id (grRole_put.mp hrole))
      fun u hrole => hinstall u (grRole_install.mp hrole)
  cases e with
  | putRequestLocked id =>
    obtain ⟨putState, hget, -, rfl⟩ := grProcessPutRequestLocked_some h
    rw [grPutCall, hget]
    rfl
  | replicaUpdateLocked update => exact hmove.store_install
  | _ => exact hsame (by rintro _ ⟨⟩) (by rintro _ ⟨⟩)

section Runs

variable {setup : Setup c (GrEvent c)} {Q : GrAct c → Prop} {M : GrMail c} {h : List (GrAct c)}

/-- **A store is what the calls at its server make of it.** -/
theorem gr_store_calls (hr : Mail.Run (grProgram c) Q (grWorld setup).config.mail M h)
    (s : ServerId c) : (M.server s).store = storeAfter (grPutCalls s h) := by
  induction hr with
  | nil => rfl
  | @cons M M' h a hrun hstep hq ih =>
    cases hstep with
    | @serve s' t e r mail hev ht hserve =>
      rw [Option.toList_some, List.singleton_append, grPutCalls]
      dsimp only
      split
      · rename_i hs
        subst hs
        rw [Function.update_self]
        refine (grProcessEvent_store (grServerProcessEvent_some hserve)).trans ?_
        show Option.elim (grPutCall s' ((M.server s').at s' t) e) (M.server s').store _ = _
        cases grPutCall s' ((M.server s').at s' t) e with
        | none => exact ih
        | some put =>
          rw [Option.elim_some, Option.toList_some, List.singleton_append, storeAfter, ← ih]
      · rename_i hs
        rw [Function.update_of_ne (Ne.symm hs)]
        exact ih
    | client => exact ih
    | wait => exact ih

end Runs

/-! ## 4. The slots of GETs -/

/-- The two paths of a GET: it is forwarded, or takes a slot, and then waits for the lock or is
answered at once. -/
theorem grProcessGetRequest_some {request : GrGetRequest c}
    (h : grProcessGetRequest s st request = some r) :
    (lpidForKey s request.key ≠ s ∧ r.state = st ∧ (∀ e ∈ r.cont.event?, e.Other) ∧ r.outs =
        [.toServer (lpidForKey s request.key) (.getRequest { request with proxy := some s })]) ∨
      lpidForKey s request.key = s ∧
        (r = { state := { st with getStates := ptrArrayPut request.state st.getStates }
               cont := .lock .mutex grLock (.getRequestLocked (ptrArrayFree st.getStates)) } ∨
          request.gst ≤ st.gst ∧
            r = { state := { st with
                    getStates := ptrArraySet (ptrArrayPut request.state st.getStates)
                      (ptrArrayFree st.getStates) none }
                  outs := [grSend request.state.destination
                    (.getResponse (grGetAnswer s st request.state))] }) := by
  simp only [grProcessGetRequest] at h
  split at h
  · rename_i hkey
    split at h
    · cases h
    · cases h
      refine .inl ⟨hkey, rfl, ?_, rfl⟩
      split <;> rintro _ ⟨⟩
      trivial
  · rename_i hkey
    refine .inr ⟨not_not.mp hkey, ?_⟩
    split at h
    · cases h
      exact .inl rfl
    · rename_i hneed
      unfold grProcessGetRequestUnlocked at h
      rw [ptrArrayPut_get, if_pos rfl] at h
      dsimp only at h
      split at h
      · cases h
        exact .inr ⟨not_lt.mp fun hlt => hneed (decide_eq_true hlt), rfl⟩
      · cases h

/-- Only a GET takes a slot. -/
theorem GrWork.slot (hw : GrWork s st e r) (hst : GrFormed s st)
    (he : ∀ request, e ≠ .getRequest request) {id : ℕ} {getState : GrGetState c}
    (hget : ptrArrayGet r.state.getStates id = some getState) :
    ptrArrayGet st.getStates id = some getState := by
  cases hw with
  | other _ hsame =>
    rw [← hsame]
    exact hget
  | wake _ gst _ hstate =>
    rw [hstate, grUpdateGst_getStates] at hget
    exact hget
  | getForward => exact absurd rfl (he _)
  | getOpen => exact absurd rfl (he _)
  | getServe => exact absurd rfl (he _)
  | getLocked =>
    rw [grUpdateGst_getStates] at hget
    exact hget
  | getUnlocked hslot =>
    rw [ptrArraySet_get hslot] at hget
    split at hget
    · cases hget
    · exact hget
  | snapshotLocked =>
    dsimp only at hget
    rw [grUpdateGst_getStates] at hget
    exact hget
  | sliceLocked =>
    rw [grUpdateGst_getStates] at hget
    exact hget
  | receiveLocked =>
    rw [grUpdateGst_getStates] at hget
    exact hget
  | abroad _ hsnapshot hclient => exact absurd (hst.snapshot _ _ hsnapshot) hclient
  | _ => exact hget

/-- A slot that is in use was taken now, or before and has not changed. -/
theorem grProcessEvent_slot (h : grProcessEvent s st e = some r) (hst : GrFormed s st) {id : ℕ}
    {getState : GrGetState c} (hget : ptrArrayGet r.state.getStates id = some getState) :
    (∃ request, e = .getRequest request ∧ lpidForKey s request.key = s ∧
        ptrArrayFree st.getStates = id ∧ getState = request.state) ∨
      ptrArrayGet st.getStates id = some getState ∧
        ∀ request, e = .getRequest request →
          ¬(lpidForKey s request.key = s ∧ ptrArrayFree st.getStates = id) := by
  by_cases he : ∃ request, e = .getRequest request
  · obtain ⟨request, rfl⟩ := he
    rcases grProcessGetRequest_some h with ⟨hkey, hstate, -, -⟩ | ⟨hkey, rfl | ⟨-, rfl⟩⟩
    · rw [hstate] at hget
      refine .inr ⟨hget, ?_⟩
      rintro _ ⟨⟩ ⟨hown, -⟩
      exact hkey hown
    · rw [ptrArrayPut_get] at hget
      split at hget
      · rename_i hid
        exact .inl ⟨request, rfl, hkey, hid.symm, (Option.some.inj hget).symm⟩
      · rename_i hid
        exact .inr ⟨hget, fun _ _ hfree => hid hfree.2.symm⟩
    · have hslot : ptrArrayGet (ptrArrayPut request.state st.getStates)
          (ptrArrayFree st.getStates) = some request.state := by
        rw [ptrArrayPut_get, if_pos rfl]
      rw [ptrArraySet_get hslot] at hget
      split at hget
      · cases hget
      · rename_i hid
        rw [ptrArrayPut_get, if_neg hid] at hget
        exact .inr ⟨hget, fun _ _ hfree => hid hfree.2.symm⟩
  · exact .inr ⟨(grProcessEvent_work h).slot hst (fun request hreq => he ⟨request, hreq⟩) hget,
      fun request hreq => absurd ⟨request, hreq⟩ he⟩

/-- The events of a GET. -/
def GrEvent.OfGet : GrEvent c → Prop
  | .getRequest _ => True
  | .getRequestLocked _ => True
  | .getRequestUnlocked _ => True
  | .getResponse _ => True
  | _ => False

theorem GrEvent.Other.not_ofGet (he : e.Other) : ¬e.OfGet := by
  cases e <;> first | exact he.elim | exact id

/-- Only what is woken up is handed over by an update of the stable time. -/
theorem grUpdateGst_not_ofGet (st : GrServerState c) (gst : ℚ) :
    ∀ o ∈ (grUpdateGst st gst).2, ¬o.event.OfGet := by
  intro o ho
  obtain ⟨_, rotx, -, rfl⟩ := grUpdateGst_out ho
  exact id

/-- Handlers of other events leave no event of a GET behind. -/
theorem GrWork.not_ofGet (hw : GrWork s st e r) (hst : GrFormed s st) (he : ¬e.OfGet) :
    ∀ x ∈ r.placed s, ¬x.2.OfGet := by
  cases hw with
  | other _ _ _ _ _ hnew => exact fun x hx => (hnew x hx).not_ofGet
  | wake _ gst others _ hplaced hothers =>
    rw [hplaced]
    intro x hx
    rcases List.mem_append.mp hx with hx | hx
    · obtain ⟨o, ho, rfl⟩ := List.mem_map.mp hx
      exact grUpdateGst_not_ofGet st gst o ho
    · exact (hothers x hx).not_ofGet
  | getForward => exact absurd trivial he
  | getOpen => exact absurd trivial he
  | getServe => exact absurd trivial he
  | getLocked => exact absurd trivial he
  | getUnlocked => exact absurd trivial he
  | getResponse => exact absurd trivial he
  | putUnlocked =>
    refine Outcome.forall_placed (List.forall_mem_cons.mpr ⟨?_, fun o ho => ?_⟩) (by rintro _ ⟨⟩)
    · rw [grSend_event]
      exact id
    · split at ho
      · cases ho
      · obtain ⟨s', -, rfl⟩ := List.mem_map.mp ho
        exact id
  | rotxRequest =>
    refine Outcome.forall_placed (fun o ho => ?_) (by rintro _ ⟨⟩)
    dsimp only at ho
    split at ho
    · cases ho
    · obtain rfl := List.mem_singleton.mp ho
      exact id
  | snapshotLocked =>
    refine Outcome.forall_placed (grUpdateGst_not_ofGet st _) ?_
    rintro _ ⟨⟩
    exact id
  | snapshotUnlocked =>
    refine Outcome.forall_placed (fun o ho => ?_) (by rintro _ ⟨⟩)
    obtain ⟨i, hi, rfl⟩ := List.mem_mapIdx.mp ho
    exact id
  | sliceLocked =>
    refine Outcome.forall_placed (grUpdateGst_not_ofGet st _) ?_
    rintro _ ⟨⟩
    exact id
  | receiveLocked =>
    refine Outcome.forall_placed (grUpdateGst_not_ofGet st _) ?_
    rintro _ ⟨⟩
    exact id
  | abroad _ hsnapshot hclient => exact absurd (hst.snapshot _ _ hsnapshot) hclient
  | _ =>
    -- at most one event is handed over, and at most one comes under the lock
    refine Outcome.forall_placed (fun o ho => ?_) fun e he => ?_
    · rcases ho with _ | ⟨_, ⟨⟩⟩ <;> exact id
    · cases he <;> exact id

theorem grProcessGetRequestLocked_some {id : ℕ} (h : grProcessGetRequestLocked st id = some r) :
    ∃ getState, ptrArrayGet st.getStates id = some getState ∧
      r = { state := (grUpdateGst st getState.gst).1
            outs := (grUpdateGst st getState.gst).2
            cont := .unlock .mutex grLock (some (.getRequestUnlocked id)) } := by
  unfold grProcessGetRequestLocked at h
  split at h
  · cases h
  · rename_i getState hslot
    cases h
    exact ⟨getState, hslot, rfl⟩

theorem grProcessGetRequestUnlocked_some {id : ℕ}
    (h : grProcessGetRequestUnlocked s st id = some r) :
    ∃ getState, ptrArrayGet st.getStates id = some getState ∧
      r = { state := { st with getStates := ptrArraySet st.getStates id none }
            outs := [grSend getState.destination
              (.getResponse (grGetAnswer s st getState))] } := by
  unfold grProcessGetRequestUnlocked at h
  split at h
  · cases h
  · rename_i getState hslot
    split at h
    · cases h
      exact ⟨getState, hslot, rfl⟩
    · cases h

/-- A GET that goes on to read has had the lock, and finds the stable time that it waited for. -/
theorem grProcessEvent_ready (h : grProcessEvent s st e = some r) (hst : GrFormed s st)
    {p : ServerId c ⊕ ClientId c} {id : ℕ}
    (hnew : (p, GrEvent.getRequestUnlocked id) ∈ r.placed s) :
    p = .inl s ∧ ∀ getState, ptrArrayGet r.state.getStates id = some getState →
      getState.gst ≤ r.state.gst := by
  by_cases he : e.OfGet
  · rcases Outcome.mem_placed.mp hnew with ⟨o, ho, heq⟩ | ⟨e', he', heq⟩
    · -- nothing that is handed over goes on to read
      have hevent : o.event = .getRequestUnlocked id := (Prod.ext_iff.mp heq).2
      cases e with
      | getRequest request =>
        rcases grProcessGetRequest_some h with ⟨-, -, -, houts⟩ | ⟨-, rfl | ⟨-, rfl⟩⟩
        · rw [houts] at ho
          obtain rfl := List.mem_singleton.mp ho
          cases hevent
        · cases ho
        · obtain rfl := List.mem_singleton.mp ho
          rw [grSend_event] at hevent
          cases hevent
      | getRequestLocked id' =>
        obtain ⟨getState, -, rfl⟩ := grProcessGetRequestLocked_some h
        refine absurd ?_ (grUpdateGst_not_ofGet st _ o ho)
        rw [hevent]
        trivial
      | getRequestUnlocked id' =>
        obtain ⟨getState, -, rfl⟩ := grProcessGetRequestUnlocked_some h
        obtain rfl := List.mem_singleton.mp ho
        rw [grSend_event] at hevent
        cases hevent
      | getResponse response =>
        cases h
        obtain rfl := List.mem_singleton.mp ho
        cases hevent
      | _ => exact he.elim
    · cases heq
      refine ⟨rfl, ?_⟩
      cases e with
      | getRequest request =>
        rcases grProcessGetRequest_some h with ⟨-, -, hcont, -⟩ | ⟨-, rfl | ⟨-, rfl⟩⟩
        · exact (hcont _ he').elim
        · cases he'
        · cases he'
      | getRequestLocked id' =>
        obtain ⟨getState', hslot, rfl⟩ := grProcessGetRequestLocked_some h
        cases he'
        intro getState hget
        rw [grUpdateGst_getStates, hslot] at hget
        obtain rfl := Option.some.inj hget
        rw [grUpdateGst_gst]
        exact le_max_right _ _
      | getRequestUnlocked id' =>
        obtain ⟨getState, -, rfl⟩ := grProcessGetRequestUnlocked_some h
        cases he'
      | getResponse response =>
        cases h
        cases he'
      | _ => exact he.elim
  · exact absurd trivial ((grProcessEvent_work h).not_ofGet hst he _ hnew)

/-- **Where the answer to a GET comes from**: it is passed on, or read at once, or from a slot. -/
theorem grProcessEvent_answer (h : grProcessEvent s st e = some r) (hst : GrFormed s st)
    {o : GrOut c} (ho : o ∈ r.outs) {response : GrGetResponse c}
    (hevent : o.event = .getResponse response) :
    e = .getResponse response ∨
      (∃ request, e = .getRequest request ∧ request.gst ≤ st.gst ∧
        response = grGetAnswer s st request.state) ∨
      ∃ id getState, e = .getRequestUnlocked id ∧ ptrArrayGet st.getStates id = some getState ∧
        response = grGetAnswer s st getState := by
  by_cases he : e.OfGet
  · cases e with
    | getRequest request =>
      rcases grProcessGetRequest_some h with ⟨-, -, -, houts⟩ | ⟨-, rfl | ⟨hgst, rfl⟩⟩
      · rw [houts] at ho
        obtain rfl := List.mem_singleton.mp ho
        cases hevent
      · cases ho
      · obtain rfl := List.mem_singleton.mp ho
        rw [grSend_event] at hevent
        cases hevent
        exact .inr (.inl ⟨request, rfl, hgst, rfl⟩)
    | getRequestLocked id =>
      obtain ⟨getState, -, rfl⟩ := grProcessGetRequestLocked_some h
      refine absurd ?_ (grUpdateGst_not_ofGet st _ o ho)
      rw [hevent]
      trivial
    | getRequestUnlocked id =>
      obtain ⟨getState, hslot, rfl⟩ := grProcessGetRequestUnlocked_some h
      obtain rfl := List.mem_singleton.mp ho
      rw [grSend_event] at hevent
      cases hevent
      exact .inr (.inr ⟨id, getState, rfl, hslot, rfl⟩)
    | getResponse response' =>
      cases h
      obtain rfl := List.mem_singleton.mp ho
      cases hevent
      exact .inl rfl
    | _ => exact he.elim
  · have hnot := (grProcessEvent_work h).not_ofGet hst he _
      (Outcome.mem_placed.mpr (.inl ⟨o, ho, rfl⟩))
    dsimp only at hnot
    rw [hevent] at hnot
    exact absurd trivial hnot

/-- A handler that takes no such slot. -/
theorem grOpener_skip {s' : ServerId c} {t : ℚ} {id : ℕ} {h : List (GrAct c)}
    (he : ∀ request, e = .getRequest request →
      ¬(s' = s ∧ lpidForKey s request.key = s ∧ ptrArrayFree st.getStates = id)) :
    grOpener s id (.server s' t e st r :: h) = grOpener s id h := by
  cases e with
  | getRequest request => exact if_neg (he request rfl)
  | _ => rfl

/-- A slot in use holds the request that it was taken for, and a GET that has had the lock finds the
stable time that it waited for. -/
structure GrGets (M : GrMail c) (h : List (GrAct c)) : Prop where
  slot : ∀ s id getState, ptrArrayGet (M.server s).getStates id = some getState →
    ∃ request, grOpener s id h = some request ∧ getState = request.state
  ready : ∀ s id, (.inl s, .getRequestUnlocked id) ∈ M.events → ∀ getState,
    ptrArrayGet (M.server s).getStates id = some getState → getState.gst ≤ (M.server s).gst

section Runs

variable {setup : Setup c (GrEvent c)} {Q : GrAct c → Prop} {M : GrMail c} {h : List (GrAct c)}

/-- A slot that a pending event refers to is in use. -/
theorem gr_slot_used (hr : Mail.Run (grProgram c) Q (grWorld setup).config.mail M h)
    {s : ServerId c} {id : ℕ} {e : GrEvent c} (hmem : (.inl s, e) ∈ M.events)
    (href : grRefs (.inl s, e) (.get s id) = 1) :
    ptrArrayGet (M.server s).getStates id ≠ none := by
  intro hfree
  have htotal := gr_balanced hr (.get s id)
  rw [grTotal_slot (.inl rfl), grHeld_get, hfree, Option.elim_none, add_zero] at htotal
  have hle := Multiset.single_le_sum (s := M.events.map fun x => grRefs x (.get s id))
    (fun y hy => by
      obtain ⟨x, -, rfl⟩ := Multiset.mem_map.mp hy
      exact grRefs_nonneg x _) _ (Multiset.mem_map_of_mem _ hmem)
  rw [href] at hle
  omega

/-- Every handler of a server keeps this. -/
theorem grGets_serve (hrun : Mail.Run (grProgram c) Q (grWorld setup).config.mail M h)
    (hgets : GrGets M h) {s : ServerId c} {t : ℚ} {e : GrEvent c} {r : GrOutcome c}
    {mail : Multiset ((ServerId c ⊕ ClientId c) × GrEvent c)}
    (hev : M.events = (.inl s, e) ::ₘ mail)
    (hserve : grServerProcessEvent s t (M.server s) e = some r) :
    GrGets ⟨t, Function.update M.server s r.state, M.client,
        mail + ((r.placed s : List _) : Multiset _)⟩ (.server s t e (M.server s) r :: h) := by
  have hst : GrFormed s { M.server s with now := t, clock := c.clock s t } :=
    ((gr_formed hrun).1 s).of_eq rfl rfl rfl rfl
  have hproc := grServerProcessEvent_some hserve
  refine ⟨fun s' id getState hget => ?_, fun s' id hmem getState hget => ?_⟩
  · dsimp only at hget
    by_cases hs : s = s'
    · subst hs
      rw [Function.update_self] at hget
      rcases grProcessEvent_slot hproc hst hget with
        ⟨request, rfl, hkey, hfree, rfl⟩ | ⟨hget, hskip⟩
      · exact ⟨request, if_pos ⟨rfl, hkey, hfree⟩, rfl⟩
      · have hsame : grOpener s id (.server s t e (M.server s) r :: h) = grOpener s id h :=
          grOpener_skip fun request hreq hall => hskip request hreq hall.2
        rw [hsame]
        exact hgets.slot s id getState hget
    · rw [Function.update_of_ne (Ne.symm hs)] at hget
      rw [grOpener_skip fun request _ hall => hs hall.1]
      exact hgets.slot s' id getState hget
  · dsimp only at hget ⊢
    rcases Multiset.mem_add.mp hmem with hmem | hmem
    · have hold : (.inl s', .getRequestUnlocked id) ∈ M.events := by
        rw [hev]
        exact Multiset.mem_cons_of_mem hmem
      by_cases hs : s' = s
      · subst hs
        rw [Function.update_self] at hget ⊢
        rcases grProcessEvent_slot hproc hst hget with ⟨request, -, -, hfree, -⟩ | ⟨hget, -⟩
        · -- a slot that is referred to is not free
          refine absurd ?_ (gr_slot_used hrun hold (GrRef.one_self _))
          rw [← hfree]
          exact ptrArrayFree_get _
        · exact (hgets.ready s' id hold getState hget).trans (grServerProcessEvent_gst hserve)
      · rw [Function.update_of_ne hs] at hget ⊢
        exact hgets.ready s' id hold getState hget
    · obtain ⟨hs, hready⟩ := grProcessEvent_ready hproc hst (Multiset.mem_coe.mp hmem)
      obtain rfl := Sum.inl.inj hs
      rw [Function.update_self] at hget ⊢
      exact hready getState hget

theorem gr_gets (hr : Mail.Run (grProgram c) Q (grWorld setup).config.mail M h) : GrGets M h := by
  induction hr with
  | nil =>
    refine ⟨by rintro s id _ ⟨⟩, fun s id _ => ?_⟩
    rintro _ ⟨⟩
  | @cons M M' h a hrun hstep hq ih =>
    cases hstep with
    | serve hev ht hserve => exact grGets_serve hrun ih hev hserve
    | @client k t x e r mail hev ht hclient =>
      refine ⟨ih.slot, fun s id hmem => ?_⟩
      rcases Multiset.mem_add.mp hmem with hmem | hmem
      · exact ih.ready s id (hev ▸ Multiset.mem_cons_of_mem hmem)
      · obtain ⟨st', -, -, hasks⟩ := grClientProcessEvent_asks hclient
        cases hasks _ (Multiset.mem_coe.mp hmem)
    | wait => exact ⟨ih.slot, ih.ready⟩

end Runs

/-! ## 5. What GETs return -/

/-- The answer to a GET returns the newest of these versions that is local or not later than the
stable time it carries, or no version is. -/
structure GrReadsNewest (s : ServerId c) (versions : List (GrItem c)) (response : GrGetResponse c) :
    Prop where
  value : response.value = valueOf response.read
  time : response.updateTimestamp = updateTimeOf response.read
  newest : ∀ x, response.read = some x → IsNewest versions (grIsValueVisible s response.gst) x
  none : response.read = none → ∀ y ∈ versions,
    ¬(y.sourceReplica = s.1 ∨ y.updateTime ≤ response.gst)

theorem grGetAnswer_newest {puts : List (Key × GrItem c)} (hstore : st.store = storeAfter puts)
    (getState : GrGetState c) :
    GrReadsNewest s (versionsOf getState.key (accepted puts)) (grGetAnswer s st getState) := by
  have hread := getValueAt_newest puts getState.key (grIsValueVisible s st.gst)
  rw [← hstore] at hread
  refine ⟨rfl, rfl, hread.1, fun hnone y hy hvisible => ?_⟩
  exact hread.2 hnone y hy (decide_eq_true hvisible)

/-- **Version chains.**  A chain is sorted by its times, and has the accepted versions; a read at a
snapshot time returns the newest one up to this time; and so does a GET, of those that are local or
not later than the stable time in its answer, which is not below that of its request. -/
theorem gr_version_chains (c : Cluster) :
    (∀ (puts : List (Key × GrItem c)) (key : Key),
      (storeAfter puts key).Pairwise (fun x y => y.updateTime ≤ x.updateTime) ∧
      storeAfter puts key = versionsOf key (accepted puts) ∧
      ∀ (time : ℚ) (read : Option (GrItem c)),
        read = getValueAt (storeAfter puts) key (grIsValueVisibleSnapshot time) →
          (∀ x, read = some x →
            IsNewest (versionsOf key (accepted puts)) (grIsValueVisibleSnapshot time) x) ∧
          (read = none → (∀ y ∈ versionsOf key (accepted puts), time < y.updateTime) ∧
            valueOf read = 0 ∧ updateTimeOf read = 0 ∧
            sourceReplicaOf c.replica0 read = c.replica0)) ∧
    ∀ (setup : Setup c (GrEvent c)) (C : GrCond c) (W : GrWorld c) (h : List (GrAct c)),
      World.Run (grProgram c) setup.conf C (grWorld setup) W h →
      ∀ (later earlier : List (GrAct c)) s t e st r,
        h = later ++ .server s t e st r :: earlier →
        ∀ o ∈ r.outs, ∀ response, o.event = .getResponse response →
          e = .getResponse response ∨
          ∃ request, grGetAnswering s earlier e = some request ∧
            response.client = request.client ∧ response.key = request.key ∧
            request.gst ≤ response.gst ∧
            GrReadsNewest s (versionsOf response.key (accepted (grPutCalls s earlier)))
              response := by
  refine ⟨fun puts key => ⟨chainOf_sorted puts key, chainOf_eq puts key, ?_⟩, ?_⟩
  · rintro time read rfl
    have hread := getValueAt_newest puts key (grIsValueVisibleSnapshot time)
    refine ⟨hread.1, fun hnone => ⟨fun y hy => ?_, by rw [hnone]; rfl, by rw [hnone]; rfl,
      by rw [hnone]; rfl⟩⟩
    exact not_le.mp fun hle => hread.2 hnone y hy (decide_eq_true hle)
  · intro setup C W h hrun later earlier s t e st r hh o ho response hevent
    obtain ⟨M, M', hbefore, hstep⟩ :=
      (hrun.config.mail (Q := fun _ => True) fun _ _ => trivial).before hh
    cases hstep with
    | serve hev ht hserve =>
      have hst : GrFormed s { M.server s with now := t, clock := c.clock s t } :=
        ((gr_formed hbefore).1 s).of_eq rfl rfl rfl rfl
      have hgets := gr_gets hbefore
      have hstore := gr_store_calls hbefore s
      rcases grProcessEvent_answer (grServerProcessEvent_some hserve) hst ho hevent with
        hpass | ⟨request, rfl, hgst, rfl⟩ | ⟨id, getState, rfl, hslot, rfl⟩
      · exact .inl hpass
      · exact .inr ⟨request, rfl, rfl, rfl, hgst, grGetAnswer_newest hstore request.state⟩
      · obtain ⟨request, hopener, rfl⟩ := hgets.slot s id getState hslot
        have hmem : (.inl s, .getRequestUnlocked id) ∈ M.events := by
          rw [hev]
          exact Multiset.mem_cons_self _ _
        exact .inr ⟨request, hopener, rfl, rfl, hgets.ready s id hmem _ hslot,
          grGetAnswer_newest hstore request.state⟩

/-- The last handler call returns this value to a GET. -/
def grGot (value : Value) : List (GrAct c) → Bool
  | .server _ _ _ _ r :: _ => r.outs.any fun o => match o.event with
    | .getResponse response => decide (response.value = value)
    | _ => false
  | _ => false

theorem of_grGot {value : Value} {h : List (GrAct c)} (hgot : grGot value h) :
    ∃ s t e st r earlier, h = [] ++ .server s t e st r :: earlier ∧
      ∃ o ∈ r.outs, ∃ response, o.event = .getResponse response ∧ response.value = value := by
  unfold grGot at hgot
  split at hgot
  · rename_i s t e st r earlier
    obtain ⟨o, ho, hvalue⟩ := List.any_eq_true.mp hgot
    split at hvalue
    · rename_i response hevent
      exact ⟨s, t, e, st, r, earlier, rfl, o, ho, response, hevent, of_decide_eq_true hvalue⟩
    · cases hvalue
  · cases hgot

theorem gr_version_chains_get :
    ∃ W h, World.Run (grProgram pair) (pairSetup _).conf (fun _ _ => True)
        (grWorld (pairSetup _)) W h ∧
      ∃ s t e st r earlier, h = [] ++ .server s t e st r :: earlier ∧
        ∃ o ∈ r.outs, ∃ response, o.event = .getResponse response ∧ response.value = 7 ∧
          (e = .getResponse response ∨
            ∃ request, grGetAnswering s earlier e = some request ∧
              response.client = request.client ∧ response.key = request.key ∧
              request.gst ≤ response.gst ∧
              GrReadsNewest s (versionsOf response.key (accepted (grPutCalls s earlier)))
                response) := by
  obtain ⟨W, h, hrun, hseen⟩ := World.Run.of_replay (grProgram pair) (pairSetup _).conf
    (grWorld (pairSetup _)) Cond.tested_true readingRun (fun x => grGot 7 x.2) (by decide +kernel)
  obtain ⟨s, t, e, st, r, earlier, hh, o, ho, response, hevent, hvalue⟩ := of_grGot hseen
  exact ⟨W, h, hrun, s, t, e, st, r, earlier, hh, o, ho, response, hevent, hvalue,
    (gr_version_chains pair).2 _ _ W h hrun [] earlier s t e st r hh o ho response hevent⟩

end CCSim
