/-
# The slices of a transaction (`grv`)

The account of a slot of `rotx_states`: it is free, or what has been read and what is still under way
are together the keys of its transaction, each in its place (`GrvPhase`).  Every slice was read by
the owner of its keys (`GrvRead`).  So when the last slice is there every key has been read exactly
once, and the answer is put together from just these values (`grv_rotx_scatter_gather`).
-/
import CCSim.Grv.Scatter
import CCSim.Replay
import CCSim.Replicas.Reads

namespace CCSim

variable {c : Cluster}

/-! ## 1. A transaction and its slices -/

/-- What has been read in these slices, the latest first. -/
def grvReads (slices : List (GrvSliceResponse c)) : List (GrvSliceValue c) :=
  slices.flatMap fun slice => slice.values.reverse

@[simp]
theorem grvReads_nil : grvReads ([] : List (GrvSliceResponse c)) = [] := rfl

@[simp]
theorem grvReads_cons (slice : GrvSliceResponse c) (slices : List (GrvSliceResponse c)) :
    grvReads (slice :: slices) = slice.values.reverse ++ grvReads slices := rfl

/-- The slot of a transaction when this has been read for it, the latest first. -/
def grvReceived (request : GrvRotxRequest c) (reads : List (GrvSliceValue c)) : GrvRotxState c where
  client := request.client
  dependencyVector i := ((reads.filter fun v => decide (v.sourceReplica = i)).map
    GrvSliceValue.updateTime).foldr max 0
  values := fillIn (List.replicate request.keys.length 0) (reads.map fun v => (v.keyId, v.value))
  receivedValues := reads.length
  keys := request.keys
  reads := reads

/-- One more value; it is not counted yet. -/
theorem grvReceiveValue_received (request : GrvRotxRequest c) (reads : List (GrvSliceValue c))
    (v : GrvSliceValue c) (n : ℕ) :
    grvReceiveValue { grvReceived request reads with receivedValues := n } v =
      { grvReceived request (v :: reads) with receivedValues := n } := by
  have hvector : (if (grvReceived request reads).dependencyVector v.sourceReplica < v.updateTime then
      Function.update (grvReceived request reads).dependencyVector v.sourceReplica v.updateTime
      else (grvReceived request reads).dependencyVector) =
        (grvReceived request (v :: reads)).dependencyVector := by
    funext i
    by_cases hi : v.sourceReplica = i
    · subst hi
      have hmax : (grvReceived request (v :: reads)).dependencyVector v.sourceReplica =
          max v.updateTime ((grvReceived request reads).dependencyVector v.sourceReplica) := by
        simp [grvReceived]
      rw [hmax]
      by_cases hlt : (grvReceived request reads).dependencyVector v.sourceReplica < v.updateTime
      · rw [if_pos hlt, Function.update_self, max_eq_left hlt.le]
      · rw [if_neg hlt, max_eq_right (not_lt.mp hlt)]
    · have hsame : (grvReceived request (v :: reads)).dependencyVector i =
          (grvReceived request reads).dependencyVector i := by
        simp [grvReceived, hi]
      rw [hsame]
      split
      · rw [Function.update_of_ne (Ne.symm hi)]
      · rfl
  simp only [grvReceiveValue, hvector]
  rfl

/-- A slice. -/
theorem grvReceiveSlice_received (request : GrvRotxRequest c) (reads : List (GrvSliceValue c))
    (slice : GrvSliceResponse c) : grvReceiveSlice (grvReceived request reads) slice =
      grvReceived request (slice.values.reverse ++ reads) := by
  have hfold : ∀ (values reads : List (GrvSliceValue c)) (n : ℕ),
      values.foldl grvReceiveValue { grvReceived request reads with receivedValues := n } =
        { grvReceived request (values.reverse ++ reads) with receivedValues := n } := by
    intro values
    induction values with
    | nil => exact fun _ _ => rfl
    | cons v values ih =>
      intro reads n
      rw [List.foldl_cons, grvReceiveValue_received, ih, List.reverse_cons, List.append_assoc]
      rfl
  have hall := hfold slice.values reads (grvReceived request reads).receivedValues
  rw [grvReceiveSlice]
  refine (congrArg (fun rotx : GrvRotxState c => { rotx with
    receivedValues := (grvReceived request reads).receivedValues + slice.values.length })
      hall).trans ?_
  simp [grvReceived, Nat.add_comm]

/-- The keys of a transaction, each in its place. -/
def grvPlaces (keys : List Key) : Multiset (ℕ × Key) :=
  ((keys.mapIdx fun i key => (i, key) : List (ℕ × Key)) : Multiset (ℕ × Key))

/-- The places and the keys of what has been read. -/
def grvReadPlaces (reads : List (GrvSliceValue c)) : Multiset (ℕ × Key) :=
  ((reads.map fun v => (v.keyId, v.key) : List (ℕ × Key)) : Multiset (ℕ × Key))

@[simp]
theorem card_grvPlaces (keys : List Key) : Multiset.card (grvPlaces keys) = keys.length := by
  simp [grvPlaces]

@[simp]
theorem card_grvReadPlaces (reads : List (GrvSliceValue c)) :
    Multiset.card (grvReadPlaces reads) = reads.length := by
  simp [grvReadPlaces]

theorem grvReadPlaces_slice (slice : GrvSliceResponse c) (reads : List (GrvSliceValue c)) :
    grvReadPlaces (slice.values.reverse ++ reads) =
      ((slice.values.map fun v => (v.keyId, v.key) : List (ℕ × Key)) : Multiset (ℕ × Key)) +
        grvReadPlaces reads := by
  rw [grvReadPlaces, List.map_append, List.map_reverse, ← Multiset.coe_add, Multiset.coe_reverse]
  rfl

/-- What a slot of `rotx_states` is used for, with what has been read and what is under way for it. -/
inductive GrvPhase (id : ℕ) (reads : List (GrvSliceValue c)) (places : Multiset (ℕ × Key))
    (st : GrvServerState c) : Prop
  | free (hplaces : places = 0) (hget : ptrArrayGet st.rotxStates id = none)
  | taken {request : GrvRotxRequest c}
      (hplaces : places + grvReadPlaces reads = grvPlaces request.keys)
      (hget : ptrArrayGet st.rotxStates id = some (grvReceived request reads))
      (hmore : request.keys = [] ∨ reads.length < request.keys.length)

section Step

variable {s : ServerId c} {st st' : GrvServerState c} {e : GrvEvent c} {r : GrvOutcome c} {id : ℕ}
  {slices : List (GrvSliceResponse c)} {reads : List (GrvSliceValue c)}
  {places : Multiset (ℕ × Key)}

/-- A handler that leaves the slot alone. -/
theorem GrvPhase.same (h : GrvPhase id reads places st)
    (hget : ptrArrayGet st'.rotxStates id = ptrArrayGet st.rotxStates id) :
    GrvPhase id reads places st' := by
  cases h with
  | free hplaces hnone => exact .free hplaces (hget.trans hnone)
  | taken hplaces hsome hmore => exact .taken hplaces (hget.trans hsome) hmore

/-- A slice that is there belongs to a transaction. -/
theorem GrvPhase.of_slice {slice : GrvSliceResponse c} {rest : Multiset (ℕ × Key)}
    {rotx : GrvRotxState c}
    (h : GrvPhase id reads
      (((slice.values.map fun v => (v.keyId, v.key) : List (ℕ × Key)) : Multiset (ℕ × Key)) + rest)
      st) (hget : ptrArrayGet st.rotxStates id = some rotx) :
    ∃ request, rotx = grvReceived request reads ∧
      rest + grvReadPlaces (slice.values.reverse ++ reads) = grvPlaces request.keys ∧
      (grvReceiveSlice rotx slice = grvReceived request (slice.values.reverse ++ reads)) := by
  cases h with
  | free _ hnone =>
    rw [hnone] at hget
    cases hget
  | @taken request hplaces hsome hmore =>
    rw [hsome] at hget
    cases hget
    refine ⟨request, rfl, ?_, grvReceiveSlice_received request reads slice⟩
    rw [grvReadPlaces_slice, ← hplaces, add_left_comm, add_assoc]

/-- When a slot has received everything. -/
theorem grvReceived_complete {request : GrvRotxRequest c} {rest : Multiset (ℕ × Key)}
    (h : rest + grvReadPlaces reads = grvPlaces request.keys) :
    ((grvReceived request reads).receivedValues = (grvReceived request reads).values.length →
      rest = 0) ∧
      ((grvReceived request reads).receivedValues ≠ (grvReceived request reads).values.length →
        reads.length < request.keys.length) := by
  have hcard := congrArg Multiset.card h
  rw [Multiset.card_add, card_grvReadPlaces, card_grvPlaces] at hcard
  simp only [grvReceived, length_fillIn, List.length_replicate]
  refine ⟨fun hall => Multiset.card_eq_zero.mp ?_, fun hmore => ?_⟩ <;> omega

/-- The slices of a slot after a handler call. -/
def grvGatherOne (st : GrvServerState c) (e : GrvEvent c) (r : GrvOutcome c) (id : ℕ)
    (slices : List (GrvSliceResponse c)) : List (GrvSliceResponse c) :=
  if (grvOpened r e).isSome ∧ ptrArrayFree st.rotxStates = id then []
  else (e.slice?.filter fun slice => decide (slice.rotxId = id)).toList ++ slices

theorem grvGatherOne_none (hopened : (grvOpened r e).isSome → ptrArrayFree st.rotxStates ≠ id)
    (hslice : ∀ slice, e.slice? = some slice → slice.rotxId ≠ id) :
    grvGatherOne st e r id slices = slices := by
  rw [grvGatherOne, if_neg fun hand => hopened hand.1 hand.2]
  cases h : e.slice? with
  | none => rfl
  | some slice => simp [hslice slice h]

/-- **A handler call keeps the account of every slot of its server.** -/
theorem GrvPhase.step (hs : GrvTxStep s st e r) {rest : Multiset (ℕ × Key)}
    (h : GrvPhase id (grvReads slices) (grvSlices (.inl s, e) (s, id) + rest) st) :
    GrvPhase id (grvReads (grvGatherOne st e r id slices))
      (((r.placed s).map grvSlices).sum (s, id) + rest) r.state := by
  have hother : ∀ {id'} {places : Multiset (ℕ × Key)}, id ≠ id' →
      (Pi.single (s, id') places : ServerId c × ℕ → Multiset (ℕ × Key)) (s, id) = 0 := by
    intro id' places hne
    exact Pi.single_eq_of_ne (fun heq => hne (congrArg Prod.snd heq)) _
  cases hs with
  | pass _ hslices hrotx _ _ hopened hslice =>
    rw [grvGatherOne_none (by rw [hopened]; rintro ⟨⟩) (by rw [hslice]; rintro _ ⟨⟩), hslices]
    exact h.same (by rw [hrotx])
  | scatter request he houts hcont hrotx =>
    have hopened := GrvTxStep.opened_scatter he hcont
    have hslice : e.slice? = none := by rcases he with rfl | rfl <;> rfl
    have hown : grvSlices (.inl s, e) (s, id) = 0 := by rcases he with rfl | rfl <;> rfl
    rw [hown, zero_add] at h
    have hnew : ((r.placed s).map grvSlices).sum =
        Pi.single (s, ptrArrayFree st.rotxStates) (grvPlaces request.keys) := by
      rw [Outcome.sum_placed, houts, sum_grvSliceRequests_slices, hcont]
      exact add_zero _
    rw [hnew]
    by_cases hid : id = ptrArrayFree st.rotxStates
    · subst hid
      have hfree := ptrArrayFree_get st.rotxStates
      have hget := (ptrArrayPut_get request.state st.rotxStates
        (ptrArrayFree st.rotxStates)).trans (if_pos rfl)
      rw [← hrotx] at hget
      have hgather : grvGatherOne st e r (ptrArrayFree st.rotxStates) slices = [] := by
        rw [grvGatherOne, hopened]
        exact if_pos ⟨rfl, rfl⟩
      cases h with
      | taken _ hsome => cases hfree.symm.trans hsome
      | free hzero =>
        subst hzero
        rw [hgather, Pi.single_eq_same]
        refine .taken ?_ hget ((eq_or_ne _ []).imp_right List.length_pos_of_ne_nil)
        exact (add_zero _).trans (add_zero _)
    · rw [grvGatherOne_none (fun _ => Ne.symm hid) (by rw [hslice]; rintro _ ⟨⟩), hother hid,
        zero_add]
      refine h.same ?_
      rw [hrotx, ptrArrayPut_get, if_neg hid]
  | receive slice rotx he hget hmore houts hcont hrotx =>
    subst he
    have hzero : ((r.placed s).map grvSlices).sum = 0 := by
      rw [Outcome.sum_placed, houts, hcont]
      rfl
    rw [hzero, Pi.zero_apply, zero_add]
    by_cases hid : id = slice.rotxId
    · subst hid
      rw [grvSlices, Pi.single_eq_same] at h
      obtain ⟨request, -, hsum, hreceive⟩ := h.of_slice hget
      have hgather : grvGatherOne st (.sliceResponse slice) r slice.rotxId slices =
          slice :: slices := by
        simp [grvGatherOne, grvOpened, GrvEvent.slice?, Option.filter]
      rw [hgather, grvReads_cons]
      rw [hreceive] at hmore
      refine .taken hsum ?_ (.inr ((grvReceived_complete hsum).2 hmore))
      rw [hrotx, ptrArraySet_get hget, if_pos rfl, hreceive]
    · rw [grvGatherOne_none (by rintro ⟨⟩) (by rintro _ ⟨⟩; exact Ne.symm hid)]
      rw [grvSlices, hother hid, zero_add] at h
      refine h.same ?_
      rw [hrotx, ptrArraySet_get hget, if_neg hid]
  | answer slice rotx he hget hlast houts hcont hrotx =>
    subst he
    have hzero : ((r.placed s).map grvSlices).sum = 0 := by
      rw [Outcome.sum_placed, houts, hcont]
      rfl
    rw [hzero, Pi.zero_apply, zero_add]
    by_cases hid : id = slice.rotxId
    · subst hid
      rw [grvSlices, Pi.single_eq_same] at h
      obtain ⟨request, -, hsum, hreceive⟩ := h.of_slice hget
      rw [hreceive] at hlast
      refine .free ((grvReceived_complete hsum).1 hlast) ?_
      rw [hrotx, ptrArraySet_get hget, if_pos rfl]
    · rw [grvGatherOne_none (by rintro ⟨⟩) (by rintro _ ⟨⟩; exact Ne.symm hid)]
      rw [grvSlices, hother hid, zero_add] at h
      refine h.same ?_
      rw [hrotx, ptrArraySet_get hget, if_neg hid]

/-- A handler does nothing for the slots of other servers. -/
theorem GrvTxStep.elsewhere (hs : GrvTxStep s st e r) {s' : ServerId c} (hne : s' ≠ s) (id : ℕ) :
    ((r.placed s).map grvSlices).sum (s', id) = grvSlices (.inl s, e) (s', id) := by
  have hother : ∀ {id'} {places : Multiset (ℕ × Key)},
      (Pi.single (s, id') places : ServerId c × ℕ → Multiset (ℕ × Key)) (s', id) = 0 := by
    intro id' places
    exact Pi.single_eq_of_ne (fun heq => hne (congrArg Prod.fst heq)) _
  cases hs with
  | pass _ hslices => rw [hslices]
  | scatter request he houts hcont =>
    have hown : grvSlices (.inl s, e) (s', id) = 0 := by rcases he with rfl | rfl <;> rfl
    rw [hown, Outcome.sum_placed, houts, sum_grvSliceRequests_slices, hcont]
    exact (add_zero _).trans hother
  | receive slice rotx he _ _ houts hcont =>
    rw [he, grvSlices, hother, Outcome.sum_placed, houts, hcont]
    rfl
  | answer slice rotx he _ _ houts hcont =>
    rw [he, grvSlices, hother, Outcome.sum_placed, houts, hcont]
    rfl

end Step

/-! ## 2. Who has read a slice -/

/-- A value for the server `s` has been read by the owner of its key, at the stable vector that the
owner had then, with its own clock in the place of its replica. -/
structure GrvRead (h : List (GrvAct c)) (s : ServerId c) (v : GrvSliceValue c) : Prop where
  owner : ∃ t e st r slice, .server (lpidForKey s v.key) t e st r ∈ h ∧
    .toServer s (.sliceResponse slice) ∈ r.outs ∧ v ∈ slice.values ∧
    v.read = getValueAt st.store v.key (grvIsValueVisibleSnapshot
      (Function.update st.gstVector s.1 (c.clock (lpidForKey s v.key) t)))
  value : v.value = valueOf v.read
  updateTime : v.updateTime = updateTimeOf v.read
  sourceReplica : v.sourceReplica = sourceReplicaOf c.replica0 v.read

theorem GrvRead.more {h : List (GrvAct c)} {s : ServerId c} {v : GrvSliceValue c}
    (hr : GrvRead h s v) (a : GrvAct c) : GrvRead (a :: h) s v := by
  obtain ⟨⟨t, e, st, r, slice, hmem, hout, hread⟩, hvalue, htime, hsource⟩ := hr
  exact ⟨⟨t, e, st, r, slice, List.mem_cons_of_mem a hmem, hout, hread⟩, hvalue, htime, hsource⟩

/-- Every slice that an event brings has been read. -/
def GrvSlicesRead (h : List (GrvAct c)) (x : (ServerId c ⊕ ClientId c) × GrvEvent c) : Prop :=
  ∀ slice, x.2.slice? = some slice → ∀ s, x.1 = .inl s → ∀ v ∈ slice.values, GrvRead h s v

theorem grvSlicesRead_none {h : List (GrvAct c)} {x : (ServerId c ⊕ ClientId c) × GrvEvent c}
    (hx : x.2.slice? = none) : GrvSlicesRead h x := by
  intro slice hslice
  rw [hx] at hslice
  cases hslice

theorem GrvEvent.Other.slice? {e : GrvEvent c} (h : e.Other) : e.slice? = none := by
  cases e <;> first | exact h.elim | rfl

theorem grvSend_slice? {lpid : Lpid c} {e : GrvEvent c} (h : e.slice? = none) :
    (grvSend lpid e).event.slice? = none := by
  cases lpid <;> exact h

/-- A slice that a handler sends was read there. -/
theorem GrvWork.slicesRead {h : List (GrvAct c)} {s : ServerId c} {t : ℚ} {st : GrvServerState c}
    {e : GrvEvent c} {r : GrvOutcome c}
    (hw : GrvWork s { st with now := t, clock := c.clock s t } e r)
    (haddr : GrvAddressed (.inl s, e)) :
    ∀ x ∈ r.placed s, GrvSlicesRead (.server s t e st r :: h) x := by
  have hnone : (∀ o ∈ r.outs, o.event.slice? = none) →
      (∀ e ∈ r.cont.event?, e.slice? = none) →
        ∀ x ∈ r.placed s, GrvSlicesRead (.server s t e st r :: h) x :=
    fun houts hcont => Outcome.forall_placed (fun o ho => grvSlicesRead_none (houts o ho))
      fun e he => grvSlicesRead_none (hcont e he)
  have hone : ∀ {o : GrvOut c}, r.outs = [o] → o.event.slice? = none →
      (∀ e ∈ r.cont.event?, e.slice? = none) →
        ∀ x ∈ r.placed s, GrvSlicesRead (.server s t e st r :: h) x :=
    fun houts ho => hnone (houts ▸ List.forall_mem_singleton.mpr ho)
  cases hw with
  | other _ _ _ hnew => exact fun x hx => grvSlicesRead_none (hnew x hx).slice?
  | getForward _ hcont => exact hone rfl rfl fun e he => (hcont e he).slice?
  | getLock => exact hnone (List.forall_mem_nil _) (by rintro _ ⟨⟩; rfl)
  | getLocked => exact hnone (List.forall_mem_nil _) (by rintro _ ⟨⟩; rfl)
  | getServe => exact hone rfl (grvSend_slice? rfl) (by rintro _ ⟨⟩)
  | getResponse => exact hone rfl rfl (by rintro _ ⟨⟩)
  | putForward => exact hone rfl rfl (by rintro _ ⟨⟩)
  | putDefer => exact hone rfl rfl (by rintro _ ⟨⟩)
  | putOpen => exact hnone (List.forall_mem_nil _) (by rintro _ ⟨⟩; rfl)
  | putLocked => exact hnone (List.forall_mem_nil _) (by rintro _ ⟨⟩; rfl)
  | putUnlocked =>
    refine hnone (List.forall_mem_cons.mpr ⟨grvSend_slice? rfl, fun o ho => ?_⟩) (by rintro _ ⟨⟩)
    split at ho
    · cases ho
    · obtain ⟨s', -, rfl⟩ := List.mem_map.mp ho
      rfl
  | putResponse => exact hone rfl rfl (by rintro _ ⟨⟩)
  | rotxLock => exact hnone (List.forall_mem_nil _) (by rintro _ ⟨⟩; rfl)
  | rotxLocked => exact hnone (List.forall_mem_nil _) (by rintro _ ⟨⟩; rfl)
  | rotxOpen =>
    refine hnone (fun o ho => ?_) (by rintro _ ⟨⟩)
    obtain ⟨p, -, ho⟩ := List.mem_filterMap.mp ho
    split at ho
    · cases ho
    · cases ho
      rfl
  | sliceDefer => exact hone rfl rfl (by rintro _ ⟨⟩)
  | sliceLock => exact hnone (List.forall_mem_nil _) (by rintro _ ⟨⟩; rfl)
  | sliceLocked => exact hnone (List.forall_mem_nil _) (by rintro _ ⟨⟩; rfl)
  | @sliceServe _ request noTime he hkeys =>
    refine Outcome.forall_placed (List.forall_mem_singleton.mpr ?_) (by rintro _ ⟨⟩)
    rintro slice hslice s' hs' v hv
    cases hslice
    cases hs'
    obtain ⟨x, hx, rfl⟩ := List.mem_map.mp hv
    have hreplica : request.fromLpid.1 = s.1 := by rcases he with rfl | rfl <;> exact haddr
    have howner : lpidForKey request.fromLpid x.2 = s := by
      have hown : lpidForKey s x.2 = s := of_decide_eq_true (List.all_eq_true.mp hkeys x hx)
      rwa [lpidForKey, ← hreplica] at hown
    have hhome : lpidForKey request.fromLpid (grvSliceValue s
        { st with now := t, clock := c.clock s t } x.1 x.2).key = s := howner
    refine ⟨⟨t, e, st, ?outcome, ?slice, ?server, ?out, ?value, ?read⟩, rfl, rfl, rfl⟩
    case server =>
      rw [hhome]
      exact List.mem_cons_self
    case out => exact List.mem_singleton_self _
    case value => exact hv
    case read =>
      rw [hhome, hreplica]
      rfl
  | receive => exact hnone (List.forall_mem_nil _) (by rintro _ ⟨⟩)
  | receiveLast => exact hone rfl rfl (by rintro _ ⟨⟩)

section Runs

variable {setup : Setup c (GrvEvent c)} {Q : GrvAct c → Prop} {M : GrvMail c} {h : List (GrvAct c)}

/-- **Every slice that is under way to a server has been read by the owner of its keys.** -/
theorem grv_slices_read (hr : Mail.Run (grvProgram c) Q (grvWorld setup).config.mail M h) :
    ∀ x ∈ M.events, GrvSlicesRead h x := by
  refine hr.flow_past GrvSlicesRead ?_ ?_ ?_ ?_
  · intro a h x hx slice hslice s hs v hv
    exact (hx slice hslice s hs v hv).more a
  · intro M h s t e r hrun hmem hserve _
    exact (grvProcessEvent_work (grvServerProcessEvent_some hserve)).slicesRead
      ((grv_formed hrun).2 _ hmem)
  · intro M h k t decision e r hrun hclient x hx
    obtain ⟨st', -, -, hsends⟩ := grvClientProcessEvent_some hclient
    cases hsends with
    | nothing => cases hx
    | tick delay =>
      obtain rfl := List.mem_singleton.mp hx
      exact grvSlicesRead_none rfl
    | request _ _ _ hask =>
      obtain rfl := List.mem_singleton.mp hx
      cases hask <;> exact grvSlicesRead_none rfl
  · intro x hx
    rcases Setup.mem_mail hx with ⟨s, rfl, -⟩ | ⟨s, rfl⟩ | ⟨k, rfl⟩ <;> exact grvSlicesRead_none rfl

theorem grvGathered_client {k : ClientId c} {t : ℚ} {e : GrvEvent c} {st : GrvClientState c}
    {r : GrvClientState c × List (GrvOut c)} (s : ServerId c) (id : ℕ) :
    grvGathered s id (.client k t e st r :: h) = grvGathered s id h :=
  gathered_of_neither rfl rfl

theorem grvGathered_elsewhere {s s' : ServerId c} {t : ℚ} {e : GrvEvent c} {st : GrvServerState c}
    {r : GrvOutcome c} (hs : s' ≠ s) (id : ℕ) :
    grvGathered s id (.server s' t e st r :: h) = grvGathered s id h :=
  gathered_of_neither (decide_eq_false fun hand => hs hand.1) (if_neg hs)

theorem grvGathered_server {s : ServerId c} {t : ℚ} {e : GrvEvent c} {st : GrvServerState c}
    {r : GrvOutcome c} (id : ℕ) :
    grvGathered s id (.server s t e st r :: h) = grvGatherOne st e r id (grvGathered s id h) := by
  simp [grvGathered, gathered, grvGatherOne]

/-- What is in the slices of a slot has been read, and the account of the slot is in order. -/
structure GrvGathered (s : ServerId c) (id : ℕ) (h : List (GrvAct c)) (places : Multiset (ℕ × Key))
    (server : ServerId c → GrvServerState c) : Prop where
  read : ∀ v ∈ grvReads (grvGathered s id h), GrvRead h s v
  phase : GrvPhase id (grvReads (grvGathered s id h)) places (server s)

theorem sum_placed_slices (slot : ServerId c × ℕ)
    (l : List ((ServerId c ⊕ ClientId c) × GrvEvent c)) :
    (l.map grvSlices).sum slot = (l.map fun x => grvSlices x slot).sum := by
  rw [Pi.list_sum_apply, List.map_map]
  rfl

/-- **The account of every slot is in order in every state of a run.** -/
theorem grv_gathered (hr : Mail.Run (grvProgram c) Q (grvWorld setup).config.mail M h)
    (s : ServerId c) (id : ℕ) :
    GrvGathered s id h (M.events.map fun x => grvSlices x (s, id)).sum M.server := by
  refine hr.account (fun x => grvSlices x (s, id)) (GrvGathered s id) ?_ ?_ ?_
  · intro M h s' t e r mail hrun hev hserve hacc
    have hmem : (.inl s', e) ∈ M.events := by rw [hev]; exact Multiset.mem_cons_self _ _
    have hstep := (grvProcessEvent_work (grvServerProcessEvent_some hserve)).txStep
    rw [← sum_placed_slices]
    by_cases hs : s' = s
    · subst hs
      refine ⟨fun v hv => ?_, ?_⟩
      · rw [grvGathered_server, grvGatherOne] at hv
        split at hv
        · cases hv
        · obtain ⟨slice, hslice, hv⟩ := List.mem_flatMap.mp hv
          rcases List.mem_append.mp hslice with hslice | hslice
          · obtain ⟨htaken, -⟩ := Option.filter_eq_some_iff.mp (Option.mem_toList.mp hslice)
            exact (grv_slices_read hrun _ hmem slice htaken s' rfl v (List.mem_reverse.mp hv)).more _
          · exact (hacc.read v (List.mem_flatMap.mpr ⟨slice, hslice, hv⟩)).more _
      · rw [Function.update_self, grvGathered_server]
        have hphase : GrvPhase id (grvReads (grvGathered s' id h))
            (grvSlices (.inl s', e) (s', id) + (mail.map fun x => grvSlices x (s', id)).sum)
            { M.server s' with now := t, clock := c.clock s' t } := hacc.phase.same rfl
        exact hphase.step hstep
    · rw [hstep.elsewhere (Ne.symm hs)]
      refine ⟨?_, ?_⟩
      · rw [grvGathered_elsewhere hs]
        exact fun v hv => (hacc.read v hv).more _
      · rw [grvGathered_elsewhere hs, Function.update_of_ne (Ne.symm hs)]
        exact hacc.phase
  · intro M h k t decision e r mail hrun hev hclient hacc
    obtain ⟨st', hlearn, -, hsends⟩ := grvClientProcessEvent_some hclient
    have hown : grvSlices (.inr k, e) (s, id) = 0 := by cases hlearn <;> rfl
    have hzero : ((placedOfClient k r.2).map fun x => grvSlices x (s, id)).sum = 0 := by
      cases hsends with
      | nothing => rfl
      | tick delay => rfl
      | request _ _ _ hask => cases hask <;> rfl
    rw [hown] at hacc
    rw [hzero]
    refine ⟨?_, ?_⟩
    · rw [grvGathered_client]
      exact fun v hv => (hacc.read v hv).more _
    · rw [grvGathered_client]
      exact hacc.phase
  · have hzero : ((grvWorld setup).config.mail.events.map fun x => grvSlices x (s, id)).sum = 0 := by
      refine Multiset.sum_eq_zero fun y hy => ?_
      obtain ⟨x, hx, rfl⟩ := Multiset.mem_map.mp hy
      rcases Setup.mem_mail hx with ⟨s, rfl, -⟩ | ⟨s, rfl⟩ | ⟨k, rfl⟩ <;> rfl
    rw [hzero]
    exact ⟨List.forall_mem_nil _, .free rfl rfl⟩

end Runs

/-! ## 3. Scatter and gather -/

/-- The times of the versions of a replica among what has been read. -/
def grvReturned (reads : List (GrvSliceValue c)) (i : Replica c) : Set ℚ :=
  {u | ∃ v ∈ reads, ∃ item, v.read = some item ∧ item.sourceReplica = i ∧ item.updateTime = u}

/-- The answer to a transaction: every key has been read once, by its owner, and the answer says just
what has been read, with the latest time for every replica. -/
structure GrvAnswered (h : List (GrvAct c)) (k : ClientId c) (request : GrvRotxRequest c)
    (response : GrvRotxResponse c) (reads : List (GrvSliceValue c)) : Prop where
  count : reads.length = request.keys.length
  places : (reads.map fun v => (v.keyId, v.key)).Perm (request.keys.mapIdx fun i key => (i, key))
  read : ∀ v ∈ reads, GrvRead h k.server v
  length : response.values.length = request.keys.length
  values : ∀ v ∈ reads, response.values[v.keyId]? = some v.value
  latest : ∀ i, (grvReturned reads i).Nonempty →
    IsGreatest (grvReturned reads i) (response.dependencyVector i)
  nothing : ∀ i, grvReturned reads i = ∅ → response.dependencyVector i = 0

/-- The transaction of a client is under way: it has been sent, or it has a slot and something is to
be read, or has been read, for it. -/
inductive GrvUnderway (k : ClientId c) (M : GrvMail c) : Prop
  | sent {request : GrvRotxRequest c} {x : (ServerId c ⊕ ClientId c) × GrvEvent c}
      (hclient : request.client = k) (hmem : x ∈ M.events)
      (hasking : (k.server, request) ∈ grvAsking x k)
  | reads {id : ℕ} {rotx : GrvRotxState c} {x : (ServerId c ⊕ ClientId c) × GrvEvent c}
      (hget : ptrArrayGet (M.server k.server).rotxStates id = some rotx)
      (hclient : rotx.client = k) (hmem : x ∈ M.events) (hslices : grvSlices x (k.server, id) ≠ 0)

/-- The answer that is put together from all values of a transaction. -/
theorem GrvAnswered.of_reads {h : List (GrvAct c)} {k : ClientId c}
    {request request' : GrvRotxRequest c} {reads : List (GrvSliceValue c)}
    (hkeys : request'.keys = request.keys) (hall : grvReadPlaces reads = grvPlaces request.keys)
    (hread : ∀ v ∈ reads, GrvRead h k.server v)
    (hpos : ∀ v ∈ reads, ∀ item, v.read = some item → 0 < item.updateTime) :
    GrvAnswered h k request (grvRotxAnswer (grvReceived request' reads)) reads := by
  have hperm := Multiset.coe_eq_coe.mp hall
  have hcount : reads.length = request.keys.length := by
    simpa using hperm.length_eq
  have htimes : ∀ v ∈ reads, (∃ item, v.read = some item ∧ item.sourceReplica = v.sourceReplica ∧
      item.updateTime = v.updateTime ∧ 0 < v.updateTime) ∨ v.read = none ∧ v.updateTime = 0 := by
    intro v hv
    have htime := (hread v hv).updateTime
    have hsource := (hread v hv).sourceReplica
    cases hitem : v.read with
    | none =>
      rw [hitem] at htime
      exact .inr ⟨rfl, htime⟩
    | some item =>
      rw [hitem] at htime hsource
      exact .inl ⟨item, rfl, hsource.symm, htime.symm, htime ▸ hpos v hv item hitem⟩
  have hreturned : ∀ {i u}, u ∈ grvReturned reads i →
      u ∈ (reads.filter fun v => decide (v.sourceReplica = i)).map GrvSliceValue.updateTime := by
    rintro i u ⟨v, hv, item, hitem, rfl, rfl⟩
    rcases htimes v hv with ⟨item', hitem', hsource, htime, -⟩ | ⟨hnone, -⟩
    · cases hitem.symm.trans hitem'
      exact List.mem_map.mpr ⟨v, List.mem_filter.mpr ⟨hv, decide_eq_true hsource.symm⟩, htime.symm⟩
    · cases hitem.symm.trans hnone
  refine ⟨hcount, hperm, hread, ?_, ?_, ?_, ?_⟩
  · simp [grvRotxAnswer, grvReceived, hkeys]
  · intro v hv
    have hlt : v.keyId < request.keys.length := by
      have hmem := hperm.mem_iff.mp (List.mem_map_of_mem hv)
      obtain ⟨i, hi, heq⟩ := List.mem_mapIdx.mp hmem
      obtain rfl : i = v.keyId := congrArg Prod.fst heq
      exact hi
    refine getElem?_fillIn ?_ (List.mem_map_of_mem hv) ?_
    · have hnodup := nodup_of_perm_mapIdx hperm
      rw [List.map_map] at hnodup ⊢
      exact hnodup
    · rw [List.length_replicate, hkeys]
      exact hlt
  · intro i hne
    obtain ⟨-, hle⟩ := foldr_max_le_iff.mp
      (le_refl ((grvReceived request' reads).dependencyVector i))
    refine ⟨?_, fun u hu => hle u (hreturned hu)⟩
    obtain ⟨u, hu⟩ := hne
    have hupos : 0 < u := by
      obtain ⟨v, hv, item, hitem, -, rfl⟩ := hu
      exact hpos v hv item hitem
    rcases foldr_max_mem (b := (0 : ℚ)) (l := (reads.filter fun v =>
      decide (v.sourceReplica = i)).map GrvSliceValue.updateTime) with hzero | hmem
    · -- the maximum is at least the time that there is
      exact absurd (hzero ▸ hle u (hreturned hu)) (not_le.mpr hupos)
    · obtain ⟨v, hv, htime⟩ := List.mem_map.mp hmem
      obtain ⟨hv, hsource⟩ := List.mem_filter.mp hv
      have hsource := of_decide_eq_true hsource
      have hgreat := hle u (hreturned hu)
      rcases htimes v hv with ⟨item, hitem, hfrom, htime', -⟩ | ⟨-, hnone⟩
      · exact ⟨v, hv, item, hitem, hfrom.trans hsource, htime'.trans htime⟩
      · exact absurd (htime.symm.trans hnone ▸ hgreat : u ≤ 0) (not_le.mpr hupos)
  · intro i hempty
    refine le_antisymm (foldr_max_le_iff.mpr ⟨le_rfl, fun u hu => ?_⟩) le_foldr_max
    obtain ⟨v, hv, rfl⟩ := List.mem_map.mp hu
    obtain ⟨hv, hsource⟩ := List.mem_filter.mp hv
    rcases htimes v hv with ⟨item, hitem, hfrom, -⟩ | ⟨-, hzero⟩
    · have hmem : item.updateTime ∈ grvReturned reads i :=
        ⟨v, hv, item, hitem, hfrom.trans (of_decide_eq_true hsource), rfl⟩
      rw [hempty] at hmem
      cases hmem
    · exact hzero.le

section Runs

variable {setup : Setup c (GrvEvent c)} {Q : GrvAct c → Prop} {M : GrvMail c} {h : List (GrvAct c)}

/-- **A transaction that was not answered is under way.** -/
theorem grv_underway (hr : Mail.Run (grvProgram c) Q (grvWorld setup).config.mail M h)
    {k : ClientId c} {request : GrvRotxRequest c} (hasked : grvAsked k h = some request)
    (hkeys : request.keys ≠ []) : GrvUnderway k M := by
  have hpending := (grv_account hr k).pending
  rw [hasked] at hpending
  generalize grvOpenedSince k h = opened at hpending
  cases hpending with
  | sent hclient hasking =>
    have hmem : (k.server, request) ∈ (M.events.map fun x => grvAsking x k).sum := by
      rw [hasking]
      exact Multiset.mem_singleton_self _
    obtain ⟨x, hx, hp⟩ := exists_of_mem_sum_map hmem
    exact .sent hclient hx hp
  | @held _ id rotx hclient _ hget hrotx hsame =>
    have hphase := (grv_gathered hr k.server id).phase
    generalize grvReads (grvGathered k.server id h) = reads at hphase
    cases hphase with
    | free _ hnone =>
      rw [hnone] at hget
      cases hget
    | @taken request' hplaces hsome hmore =>
      rw [hsome] at hget
      cases hget
      have hlt := hmore.resolve_left fun hnil => hkeys (hsame.symm.trans hnil)
      have hne : (M.events.map fun x => grvSlices x (k.server, id)).sum ≠ 0 := by
        intro hzero
        rw [hzero, zero_add] at hplaces
        have hcard := congrArg Multiset.card hplaces
        rw [card_grvReadPlaces, card_grvPlaces] at hcard
        omega
      obtain ⟨x, hx, hslices⟩ := exists_of_sum_map_ne_zero hne
      exact .reads hsome hrotx hx hslices

theorem grv_descending {C : GrvCond c}
    {A : Config (ServerId c) (ClientId c) (GrvEvent c) (GrvServerState c) (GrvClientState c)}
    (hr : Run (grvProgram c) C (grvWorld setup).config A h) (s : ServerId c) (key : Key) :
    Descending ((A.server s).store key) :=
  Replicating.descending (R := grvReplicating c) (grvWorld_fresh setup) hr s key

/-- What has been read has a positive time. -/
theorem GrvRead.updateTime_pos {C : GrvCond c}
    {A : Config (ServerId c) (ClientId c) (GrvEvent c) (GrvServerState c) (GrvClientState c)}
    (hr : Run (grvProgram c) C (grvWorld setup).config A h) {l : List (GrvAct c)} (hl : l ⊆ h)
    {s : ServerId c} {v : GrvSliceValue c} (hread : GrvRead l s v) {item : GrvItem c}
    (hitem : v.read = some item) : 0 < item.updateTime := by
  obtain ⟨⟨t, e, st, r, slice, hmem, -, -, hvalue⟩, -⟩ := hread
  obtain ⟨l₁, l₂, hh⟩ := List.append_of_mem (hl hmem)
  obtain ⟨N, N', hrun, hstep⟩ := hr.before hh
  cases hstep with
  | serve =>
    rw [hvalue, getValueAt] at hitem
    exact (grv_descending hrun _ v.key).2 item (List.mem_of_find?_eq_some hitem)

/-- **The step in which a transaction is answered.**  Its last slice is received. -/
theorem grv_rotx_answered {C : GrvCond c}
    {A : Config (ServerId c) (ClientId c) (GrvEvent c) (GrvServerState c) (GrvClientState c)}
    (hr : Run (grvProgram c) C (grvWorld setup).config A h) {later past : List (GrvAct c)}
    {a : GrvAct c} (hh : h = later ++ a :: past) {k : ClientId c} {response : GrvRotxResponse c}
    (hmem : response ∈ grvRotxAnswers k a) :
    grvRotxAnswers k a = [response] ∧ grvRotxAsks k a = [] ∧ ∃ request id,
      grvAsked k past = some request ∧ grvOpenedSince k past = [request] ∧
        GrvAnswered (a :: past) k request response (grvReads (grvGathered k.server id (a :: past))) := by
  obtain ⟨N, N', hrun, hstep⟩ := hr.before hh
  have hmail := hrun.mail (Q := fun _ => True) fun _ _ => trivial
  have hstep := hstep.mail
  generalize N.mail = M at hmail hstep
  generalize N'.mail = M' at hstep
  cases hstep with
  | client => cases hmem
  | @serve s t e r mail hev ht hserve =>
    have htx := (grvProcessEvent_work (grvServerProcessEvent_some hserve)).txStep
    have hsilent : grvRotxAnswersTo k r.outs ≠ [] := List.ne_nil_of_mem hmem
    cases htx with
    | pass _ _ _ hanswers => exact absurd (grvRotxAnswersTo_eq_nil hanswers) hsilent
    | scatter request _ houts =>
      rw [houts] at hsilent
      exact absurd (grvRotxAnswersTo_eq_nil (grvSliceRequests_not_answer _ _ request)) hsilent
    | receive _ _ _ _ _ houts =>
      rw [houts] at hsilent
      exact absurd rfl hsilent
    | answer slice rotx he hget hlast houts =>
      subst he
      have hk : rotx.client = k := by
        by_contra hne
        exact hsilent (by simp [grvRotxAnswersTo, houts, hne])
      have hone : grvRotxAnswers k (.server s t (.sliceResponse slice) (M.server s) r) =
          [grvRotxAnswer (grvReceiveSlice rotx slice)] := by
        simp [grvRotxAnswers, grvRotxAnswersTo, houts, hk]
      rw [hone] at hmem ⊢
      obtain rfl := List.mem_singleton.mp hmem
      refine ⟨rfl, rfl, ?_⟩
      -- whose transaction it is
      have haccount := grv_account hmail k
      obtain rfl : s = k.server := by
        by_contra hne
        exact haccount.elsewhere s hne _ rotx hget hk
      have hpending := haccount.pending
      generalize hasked : grvAsked k past = asked at hpending
      generalize hsince : grvOpenedSince k past = opened at hpending
      cases hpending with
      | idle _ hfree => exact absurd hk (hfree _ rotx hget)
      | sent _ _ hfree => exact absurd hk (hfree _ rotx hget)
      | @held request id rotx' _ _ hget' _ hkeys honly =>
        obtain rfl := honly _ rotx hget hk
        cases hget'.symm.trans hget
        -- which slices it has received
        have hacc := grv_gathered hmail k.server slice.rotxId
        have hphase := hacc.phase
        rw [hev, Multiset.map_cons, Multiset.sum_cons, grvSlices, Pi.single_eq_same] at hphase
        obtain ⟨request', hrotx, hsum, hreceive⟩ := hphase.of_slice hget
        rw [hreceive] at hlast ⊢
        have hsame : request'.keys = request.keys := by
          rw [← hkeys, hrotx]
          rfl
        rw [(grvReceived_complete hsum).1 hlast, zero_add, hsame] at hsum
        have hgather : grvReads (grvGathered k.server slice.rotxId
            (.server k.server t (.sliceResponse slice) (M.server k.server) r :: past)) =
              slice.values.reverse ++ grvReads (grvGathered k.server slice.rotxId past) := by
          rw [grvGathered_server]
          simp [grvGatherOne, grvOpened, GrvEvent.slice?, Option.filter]
        have hread : ∀ v ∈ slice.values.reverse ++
            grvReads (grvGathered k.server slice.rotxId past),
            GrvRead (.server k.server t (.sliceResponse slice) (M.server k.server) r :: past)
              k.server v := by
          intro v hv
          rcases List.mem_append.mp hv with hv | hv
          · have hbrought := grv_slices_read hmail _ (hev ▸ Multiset.mem_cons_self _ _)
            exact (hbrought slice rfl k.server rfl v (List.mem_reverse.mp hv)).more _
          · exact (hacc.read v hv).more _
        have hsub : (.server k.server t (.sliceResponse slice) (M.server k.server) r :: past :
            List (GrvAct c)) ⊆ h := by
          rw [hh]
          exact List.subset_append_right _ _
        refine ⟨request, slice.rotxId, rfl, rfl, ?_⟩
        rw [hgather]
        exact .of_reads hsame hsum hread fun v hv item hitem =>
          (hread v hv).updateTime_pos hr hsub hitem

/-- **The step in which a transaction is opened.**  Nothing else sends requests for slices. -/
theorem grv_rotx_opened {C : GrvCond c}
    {A : Config (ServerId c) (ClientId c) (GrvEvent c) (GrvServerState c) (GrvClientState c)}
    (hr : Run (grvProgram c) C (grvWorld setup).config A h) {later past : List (GrvAct c)}
    {s : ServerId c} {t : ℚ} {e : GrvEvent c} {st : GrvServerState c} {r : GrvOutcome c}
    (hh : h = later ++ .server s t e st r :: past) :
    (grvOpened r e = none → ∀ s', grvSliceRequestsTo s' r.outs = []) ∧
    ∀ request, grvOpened r e = some request → s = request.client.server ∧
      grvAsked request.client past = some request ∧ grvOpenedSince request.client past = [] ∧
        GrvScattered s request r.outs := by
  obtain ⟨N, N', hrun, hstep⟩ := hr.before hh
  have hmail := hrun.mail (Q := fun _ => True) fun _ _ => trivial
  have hstep := hstep.mail
  generalize N.mail = M at hmail hstep
  generalize N'.mail = M' at hstep
  cases hstep with
  | @serve _ _ _ _ mail hev ht hserve =>
    have htx := (grvProcessEvent_work (grvServerProcessEvent_some hserve)).txStep
    refine ⟨fun hnone s' => ?_, fun request hopened => ?_⟩
    · cases htx with
      | pass _ _ _ _ hrequests => exact grvSliceRequestsTo_eq_nil fun s request => hrequests s request
      | scatter request he _ hcont => cases (GrvTxStep.opened_scatter he hcont).symm.trans hnone
      | receive _ _ _ _ _ houts =>
        rw [houts]
        rfl
      | answer _ _ _ _ _ houts =>
        rw [houts]
        rfl
    · have haccount := grv_account hmail request.client
      rw [hev, Multiset.map_cons, Multiset.sum_cons] at haccount
      obtain ⟨hs, hasked, hsince⟩ := (haccount.serve (t := t) htx rfl).2 request hopened rfl
      refine ⟨hs, hasked, hsince, ?_⟩
      cases htx with
      | pass _ _ _ _ _ hnone => cases hopened.symm.trans hnone
      | scatter request' he houts hcont =>
        obtain rfl := Option.some.inj (hopened.symm.trans (GrvTxStep.opened_scatter he hcont))
        rw [houts]
        exact grvSliceRequests_scattered s _ request
      | receive _ _ he => cases he ▸ hopened
      | answer _ _ he => cases he ▸ hopened

/-- **Transactions are scattered and gathered.**  The server of the client asks the servers that hold
the keys of the transaction once each, for all their keys, and nobody asks for slices otherwise.  The
client is sent one answer for every transaction that it asks for, unless the transaction is still
under way, and every transaction that it is sent an answer for was opened once; the answer is put
together from what the owners of its keys have returned. -/
theorem grv_rotx_scatter_gather {C : GrvCond c} {W : GrvWorld c} {h : List (GrvAct c)}
    (hrun : World.Run (grvProgram c) setup.conf C (grvWorld setup) W h) :
    (∀ later past s t e st r, h = later ++ .server s t e st r :: past →
      (grvOpened r e = none → ∀ s', grvSliceRequestsTo s' r.outs = []) ∧
      ∀ request, grvOpened r e = some request → s = request.client.server ∧
        grvAsked request.client past = some request ∧ grvOpenedSince request.client past = [] ∧
          GrvScattered s request r.outs) ∧
    ∀ k : ClientId c,
      (∀ later a past, h = later ++ a :: past → ∀ response ∈ grvRotxAnswers k a,
        grvRotxAnswers k a = [response] ∧ ∃ request id, grvAsked k past = some request ∧
          grvOpenedSince k past = [request] ∧ GrvAnswered (a :: past) k request response
            (grvReads (grvGathered k.server id (a :: past)))) ∧
      (h.flatMap (grvRotxAsks k)).length = (h.flatMap (grvRotxAnswers k)).length +
        (if (grvAsked k h).isSome then 1 else 0) ∧
      ∀ request, grvAsked k h = some request → request.keys ≠ [] →
        GrvUnderway k W.config.mail := by
  have hr := hrun.config
  refine ⟨fun later past s t e st r hh => grv_rotx_opened hr hh, fun k => ⟨?_, ?_, ?_⟩⟩
  · intro later a past hh response hmem
    obtain ⟨hone, -, hanswered⟩ := grv_rotx_answered hr hh hmem
    exact ⟨hone, hanswered⟩
  · refine length_flatMap_pending ?_ ?_
    · intro later a past hh hask
      obtain ⟨request, hmem⟩ := List.exists_mem_of_ne_nil _ hask
      obtain ⟨hone, hnone⟩ := grv_asks_once (hh ▸ hr) hmem
      refine ⟨by rw [hone, List.length_singleton], ?_, hnone⟩
      cases a with
      | server => cases hmem
      | client => rfl
    · intro later a past hh hanswers
      obtain ⟨response, hmem⟩ := List.exists_mem_of_ne_nil _ hanswers
      obtain ⟨hone, hnone, request, -, hasked, -⟩ := grv_rotx_answered hr hh hmem
      exact ⟨by rw [hone, List.length_singleton], hnone, Option.isSome_of_mem hasked⟩
  · intro request hasked hkeys
    exact grv_underway (hr.mail (Q := fun _ => True) fun _ _ => trivial) hasked hkeys

end Runs

/-- Two clients of the first partition. -/
def grvDuoSetup : Setup duo (GrvEvent duo) := duoSetupOf _

/-- Two transactions at once, the first one with a key that is repeated.  The last step receives
the last slice of the first transaction. -/
def grvTwoRotxRun : List (ℕ × ℕ) :=
  [(3, 0), (3, 0), (3, 2), (3, 2), (5, 0), (7, 0), (3, 1), (3, 1), (3, 1), (3, 1), (4, 0), (5, 0),
    (6, 0), (7, 0), (3, 0), (3, 1)]

/-- The first client has been answered, with a value for each of its three keys. -/
theorem grv_rotx_scatter_gather_two :
    ∃ W h, World.Run (grvProgram duo) grvDuoSetup.conf (fun _ _ => True) (grvWorld grvDuoSetup) W h ∧
      ∃ a past response, h = a :: past ∧ response ∈ grvRotxAnswers (clientAt duo 0 0 0) a ∧
        ∃ request id, grvOpenedSince (clientAt duo 0 0 0) past = [request] ∧
          request.keys.length = 3 ∧ GrvAnswered h (clientAt duo 0 0 0) request response
            (grvReads (grvGathered (serverAt duo 0 0) id h)) := by
  obtain ⟨W, h, hrun, hseen⟩ := World.Run.of_replay (grvProgram duo) grvDuoSetup.conf
    (grvWorld grvDuoSetup) Cond.tested_true
    (choices grvTwoRotxRun [(0, .rotx [0, 1, 0]), (1, .rotx [1, 0])] [])
    (fun x => x.2.head?.any fun a => (grvRotxAnswers (clientAt duo 0 0 0) a).any fun response =>
      decide (response.values.length = 3)) (by decide +kernel)
  obtain ⟨a, ha, hanswers⟩ := (Option.any_eq_true _ _).mp hseen
  obtain ⟨past, rfl⟩ := List.head?_eq_some_iff.mp ha
  obtain ⟨response, hmem, hvalues⟩ := List.any_eq_true.mp hanswers
  obtain ⟨-, request, id, -, hopened, hanswered⟩ :=
    ((grv_rotx_scatter_gather hrun).2 (clientAt duo 0 0 0)).1 [] a past rfl response hmem
  exact ⟨W, _, hrun, a, past, response, rfl, hmem, request, id, hopened,
    hanswered.length.symm.trans (of_decide_eq_true hvalues), hanswered⟩

end CCSim
