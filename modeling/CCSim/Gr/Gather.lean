/-
# The slices of a transaction (`gr`)

The account of a slot of `snapshot_states`: it is free, or it will be locked, then scattered, and
from then on what has been received and what is still under way are together the keys of the
transaction, each in its place, at the time that was fixed under the lock (`GrPhase`).  So when the
last slice is there every key has been read exactly once, all at this time, by its owner (`GrRead`),
and the answer is put together from just these slices (`gr_rotx_gathered`).
-/
import CCSim.Gr.Scatter

namespace CCSim

variable {c : Cluster}

/-! ## 1. A snapshot and its slices -/

/-- The snapshot of a transaction for a time, when it has received these slices, the latest first. -/
def grReceived (request : GrGetSnapshotRequest c) (time : ℚ) (slices : List (GrSliceResponse c)) :
    GrSnapshotState c :=
  slices.foldr (fun slice snapshot => grReceiveSlice snapshot slice)
    { request.state with gst := 0, time := time }

theorem ite_lt_eq_max (x y : ℚ) : (if y < x then x else y) = max x y := by
  split
  · rename_i h
    exact (max_eq_left h.le).symm
  · rename_i h
    exact (max_eq_right (not_lt.mp h)).symm

/-- What the slices add up to. -/
theorem grReceived_eq (request : GrGetSnapshotRequest c) (time : ℚ)
    (slices : List (GrSliceResponse c)) : grReceived request time slices =
      { client := request.client
        requestId := request.requestId
        updateTime := (slices.map GrSliceResponse.updateTime).foldr max 0
        gst := (slices.map GrSliceResponse.gst).foldr max 0
        time := time
        keys := request.keys
        values := fillIn (List.replicate request.keys.length 0)
          (slices.map fun slice => (slice.keyId, slice.value))
        receivedValues := slices.length
        reads := slices.map fun slice => ⟨slice.keyId, slice.key, slice.snapshotTime, slice.read⟩ } := by
  induction slices with
  | nil => rfl
  | cons slice slices ih =>
    have hcons : grReceived request time (slice :: slices) =
        grReceiveSlice (grReceived request time slices) slice := rfl
    rw [hcons, ih]
    simp only [grReceiveSlice, ite_lt_eq_max, List.map_cons, List.foldr_cons, fillIn_cons,
      List.length_cons]

/-- The keys of a transaction, each in its place, to be read at one time. -/
def grScattered (keys : List Key) (time : ℚ) : Multiset (GrPiece c) :=
  ((keys.mapIdx fun i key => .slice i key time : List (GrPiece c)) : Multiset (GrPiece c))

theorem card_grScattered (keys : List Key) (time : ℚ) :
    Multiset.card (grScattered keys time : Multiset (GrPiece c)) = keys.length := by
  simp [grScattered]

theorem mem_grScattered {keys : List Key} {time : ℚ} {p : GrPiece c}
    (h : p ∈ grScattered keys time) : ∃ i key, p = .slice i key time := by
  obtain ⟨i, hi, rfl⟩ := List.mem_mapIdx.mp (Multiset.mem_coe.mp h)
  exact ⟨i, keys[i], rfl⟩

/-- A time at which the transaction may read. -/
structure GrTimed (rotx : GrRotxState c) (time : ℚ) : Prop where
  dependencyTime : rotx.dependencyTime ≤ time
  gst : rotx.snapshotRequest.gst ≤ time

/-- What a slot of `snapshot_states` is used for, with the slices it has received and with what is
under way for it. -/
inductive GrPhase (id : ℕ) (slices : List (GrSliceResponse c)) (pieces : Multiset (GrPiece c))
    (st : GrServerState c) : Prop
  | free (hpieces : pieces = 0) (hget : ptrArrayGet st.snapshotStates id = none)
  | taken {rotx : GrRotxState c} (hpieces : pieces = {.lock}) (hrotx : GrReady st rotx)
      (hget : ptrArrayGet st.snapshotStates id = some rotx.snapshotRequest.state)
      (hslices : slices = [])
  | timed {rotx : GrRotxState c} {time : ℚ} (hpieces : pieces = {.scatter})
      (hrotx : GrReady st rotx) (htime : GrTimed rotx time)
      (hget : ptrArrayGet st.snapshotStates id = some (grReceived rotx.snapshotRequest time []))
      (hslices : slices = [])
  | read {rotx : GrRotxState c} {time : ℚ}
      (hpieces : pieces + ((slices.map GrSliceResponse.piece : List (GrPiece c)) :
        Multiset (GrPiece c)) = grScattered rotx.snapshotRequest.keys time)
      (hrotx : GrReady st rotx) (htime : GrTimed rotx time)
      (hget : ptrArrayGet st.snapshotStates id =
        some (grReceived rotx.snapshotRequest time slices))
      (hmore : rotx.snapshotRequest.keys = [] ∨
        slices.length < rotx.snapshotRequest.keys.length)

section Step

variable {s : ServerId c} {st st' : GrServerState c} {e : GrEvent c} {r : GrOutcome c} {id : ℕ}
  {slices : List (GrSliceResponse c)} {pieces : Multiset (GrPiece c)}

/-- A handler that leaves the slot and its transaction alone. -/
theorem GrPhase.same (h : GrPhase id slices pieces st)
    (hget : ptrArrayGet st'.snapshotStates id = ptrArrayGet st.snapshotStates id)
    (hrotx : ∀ rotx snapshot, ptrArrayGet st.snapshotStates id = some snapshot →
      snapshot.requestId = rotx.snapshotRequest.requestId → GrReady st rotx → GrReady st' rotx) :
    GrPhase id slices pieces st' := by
  cases h with
  | free hpieces hnone => exact .free hpieces (hget.trans hnone)
  | taken hpieces hready hsome hslices =>
    exact .taken hpieces (hrotx _ _ hsome rfl hready) (hget.trans hsome) hslices
  | timed hpieces hready htime hsome hslices =>
    exact .timed hpieces (hrotx _ _ hsome rfl hready) htime (hget.trans hsome) hslices
  | read hpieces hready htime hsome hmore =>
    refine .read hpieces (hrotx _ _ hsome ?_ hready) htime (hget.trans hsome) hmore
    rw [grReceived_eq]

/-- The first thing that is under way for a slot tells its phase. -/
theorem GrPhase.of_lock {rest : Multiset (GrPiece c)} {snapshot : GrSnapshotState c}
    (h : GrPhase id slices ({.lock} + rest) st)
    (hget : ptrArrayGet st.snapshotStates id = some snapshot) :
    ∃ rotx, GrReady st rotx ∧ snapshot = rotx.snapshotRequest.state ∧ slices = [] ∧ rest = 0 := by
  rw [Multiset.singleton_add] at h
  cases h with
  | free _ hnone =>
    rw [hnone] at hget
    cases hget
  | taken hpieces hrotx hsome hslices =>
    rw [hsome] at hget
    cases hget
    exact ⟨_, hrotx, rfl, hslices, ((Multiset.singleton_eq_cons_iff _).mp hpieces.symm).2⟩
  | timed hpieces => cases ((Multiset.singleton_eq_cons_iff _).mp hpieces.symm).1
  | read hpieces =>
    have hmem : .lock ∈ grScattered _ _ :=
      hpieces ▸ Multiset.mem_add.mpr (.inl (Multiset.mem_cons_self _ _))
    obtain ⟨i, key, ⟨⟩⟩ := mem_grScattered hmem

theorem GrPhase.of_scatter {rest : Multiset (GrPiece c)} {snapshot : GrSnapshotState c}
    (h : GrPhase id slices ({.scatter} + rest) st)
    (hget : ptrArrayGet st.snapshotStates id = some snapshot) :
    ∃ rotx time, GrReady st rotx ∧ GrTimed rotx time ∧
      snapshot = grReceived rotx.snapshotRequest time [] ∧ slices = [] ∧ rest = 0 := by
  rw [Multiset.singleton_add] at h
  cases h with
  | free _ hnone =>
    rw [hnone] at hget
    cases hget
  | taken hpieces => cases ((Multiset.singleton_eq_cons_iff _).mp hpieces.symm).1
  | timed hpieces hrotx htime hsome hslices =>
    rw [hsome] at hget
    cases hget
    exact ⟨_, _, hrotx, htime, rfl, hslices,
      ((Multiset.singleton_eq_cons_iff _).mp hpieces.symm).2⟩
  | read hpieces =>
    have hmem : .scatter ∈ grScattered _ _ :=
      hpieces ▸ Multiset.mem_add.mpr (.inl (Multiset.mem_cons_self _ _))
    obtain ⟨i, key, ⟨⟩⟩ := mem_grScattered hmem

theorem GrPhase.of_slice {rest : Multiset (GrPiece c)} {snapshot : GrSnapshotState c}
    {slice : GrSliceResponse c} (h : GrPhase id slices ({slice.piece} + rest) st)
    (hget : ptrArrayGet st.snapshotStates id = some snapshot) :
    ∃ rotx time, GrReady st rotx ∧ GrTimed rotx time ∧
      snapshot = grReceived rotx.snapshotRequest time slices ∧
      rest + (((slice :: slices).map GrSliceResponse.piece : List (GrPiece c)) :
        Multiset (GrPiece c)) = grScattered rotx.snapshotRequest.keys time := by
  rw [Multiset.singleton_add] at h
  cases h with
  | free _ hnone =>
    rw [hnone] at hget
    cases hget
  | taken hpieces => cases ((Multiset.singleton_eq_cons_iff _).mp hpieces.symm).1
  | timed hpieces => cases ((Multiset.singleton_eq_cons_iff _).mp hpieces.symm).1
  | read hpieces hrotx htime hsome hmore =>
    rw [hsome] at hget
    cases hget
    refine ⟨_, _, hrotx, htime, rfl, ?_⟩
    rw [← hpieces, List.map_cons, ← Multiset.cons_coe, Multiset.add_cons, Multiset.cons_add]

/-- The slices of a slot after a handler call. -/
def grGatherOne (st : GrServerState c) (e : GrEvent c) (r : GrOutcome c) (id : ℕ)
    (slices : List (GrSliceResponse c)) : List (GrSliceResponse c) :=
  if grSnapshotTaken st e = some id then []
  else ((grSliceTaken r e).filter fun slice => decide (slice.snapshotId = id)).toList ++ slices

theorem grGatherOne_none (htaken : grSnapshotTaken st e ≠ some id)
    (hslice : ∀ slice, grSliceTaken r e = some slice → slice.snapshotId ≠ id) :
    grGatherOne st e r id slices = slices := by
  rw [grGatherOne, if_neg htaken]
  cases h : grSliceTaken r e with
  | none => rfl
  | some slice => simp [hslice slice h]

/-- **A handler call keeps the account of every slot of its server.** -/
theorem GrPhase.step (hs : GrTxStep s st e r) {rest : Multiset (GrPiece c)}
    (hasked : ∀ request, e = .getSnapshotRequest request →
      ∃ rotx, GrReady st rotx ∧ rotx.snapshotRequest = request)
    (hstable : ∀ rotx, GrReady st rotx → rotx.dependencyTime ≤ st.gst)
    (honly : ∀ id id' snapshot snapshot', ptrArrayGet st.snapshotStates id = some snapshot →
      ptrArrayGet st.snapshotStates id' = some snapshot' →
        snapshot'.requestId = snapshot.requestId → id' = id)
    (h : GrPhase id slices (grPieces (.inl s, e) (.snapshot s id) + rest) st) :
    GrPhase id (grGatherOne st e r id slices)
      (((r.placed s).map grPieces).sum (.snapshot s id) + rest) r.state := by
  have hwoken : ∀ gst, grWoken s st gst (.snapshot s id) = 0 := grWoken_of_ne (by rintro _ ⟨⟩) st
  have hother : ∀ {id'} {pieces : Multiset (GrPiece c)}, id ≠ id' →
      (GrTx.snapshot s id').one pieces (.snapshot s id) = 0 := by
    intro id' pieces hne
    exact GrTx.one_of_ne (by rintro ⟨⟩; exact hne rfl) _
  cases hs with
  | pass gst hpieces hrotx hsnapshot _ htaken hslice =>
    rw [grGatherOne_none (by rw [htaken]; rintro ⟨⟩) (by rw [hslice]; rintro _ ⟨⟩), hpieces,
      Pi.add_apply, hwoken, add_zero]
    exact h.same (by rw [hsnapshot]) fun _ _ _ _ hready => hready.woken hrotx
  | ask request he hpieces hrotx hsnapshot =>
    have hzero : ((r.placed s).map grPieces).sum (.snapshot s id) = 0 := by
      rw [hpieces]
      split
      · exact GrTx.one_of_ne (by rintro ⟨⟩) _
      · rfl
    have hown : grPieces (.inl s, e) (.snapshot s id) = 0 := by
      rw [he]
      exact GrTx.one_of_ne (by rintro ⟨⟩) _
    rw [he, grGatherOne_none (by rintro ⟨⟩) (by rintro _ ⟨⟩), hzero, ← hown]
    exact h.same (by rw [hsnapshot]) fun _ _ _ _ hready => hready.put hrotx
  | take request he hpieces hrotx hsnapshot =>
    have hown : grPieces (.inl s, e) (.snapshot s id) = 0 := by
      rw [he]
      exact GrTx.one_of_ne (by rintro ⟨⟩) _
    rw [hown, zero_add] at h
    by_cases hid : id = ptrArrayFree st.snapshotStates
    · subst hid
      obtain ⟨rotx, hready, rfl⟩ := hasked request he
      have hfree := ptrArrayFree_get st.snapshotStates
      have hget := (ptrArrayPut_get rotx.snapshotRequest.state st.snapshotStates
        (ptrArrayFree st.snapshotStates)).trans (if_pos rfl)
      rw [← hsnapshot] at hget
      have hrest : rest = 0 := by
        cases h with
        | free hzero => exact hzero
        | taken _ _ hsome => cases hfree.symm.trans hsome
        | timed _ _ _ hsome => cases hfree.symm.trans hsome
        | read _ _ _ hsome => cases hfree.symm.trans hsome
      refine .taken ?_ (hready.of_eq hrotx) hget ?_
      · rw [hpieces, GrTx.one_self, hrest, add_zero]
      · rw [he, grGatherOne]
        exact if_pos rfl
    · rw [he, grGatherOne_none (by rintro ⟨⟩; exact hid rfl) (by rintro _ ⟨⟩), hpieces,
        hother hid, zero_add]
      refine h.same ?_ fun _ _ _ _ hready => hready.of_eq hrotx
      rw [hsnapshot, ptrArrayPut_get, if_neg hid]
  | lock id' snapshot he hget hpieces hrotx hsnapshot =>
    rw [he, grGatherOne_none (by rintro ⟨⟩) (by rintro _ ⟨⟩), hpieces, Pi.add_apply, hwoken,
      add_zero]
    rw [he] at h
    by_cases hid : id = id'
    · subst hid
      rw [grPieces, GrTx.one_self] at h
      obtain ⟨rotx, hready, rfl, rfl, rfl⟩ := h.of_lock hget
      refine .timed (by rw [GrTx.one_self, add_zero]) (hready.woken hrotx)
        ⟨(hstable rotx hready).trans (le_max_left _ _), le_max_right _ _⟩ ?_ rfl
      rw [hsnapshot, ptrArraySet_get hget, if_pos rfl]
      rfl
    · rw [grPieces, hother hid] at h
      rw [hother hid]
      refine h.same ?_ fun _ _ _ _ hready => hready.woken hrotx
      rw [hsnapshot, ptrArraySet_get hget, if_neg hid]
  | scatter id' snapshot he hget hpieces hrotx hsnapshot =>
    rw [he, grGatherOne_none (by rintro ⟨⟩) (by rintro _ ⟨⟩), hpieces]
    rw [he] at h
    by_cases hid : id = id'
    · subst hid
      rw [grPieces, GrTx.one_self] at h
      obtain ⟨rotx, time, hready, htime, rfl, rfl, rfl⟩ := h.of_scatter hget
      refine .read ?_ (hready.of_eq hrotx) htime (by rw [hsnapshot]; exact hget) ?_
      · rw [GrTx.one_self]
        exact (add_zero _).trans (add_zero _)
      · exact (eq_or_ne _ []).imp_right List.length_pos_of_ne_nil
    · rw [grPieces, hother hid] at h
      rw [hother hid]
      exact h.same (by rw [hsnapshot]) fun _ _ _ _ hready => hready.of_eq hrotx
  | receive slice snapshot he hget hmore hpieces hrotx hsnapshot =>
    obtain ⟨hown, htaken⟩ := grSliceTaken_some s st he
    rw [hown] at h
    rw [hpieces, Pi.zero_apply, zero_add]
    by_cases hid : id = slice.snapshotId
    · subst hid
      rw [GrTx.one_self] at h
      obtain ⟨rotx, time, hready, htime, rfl, hsum⟩ := h.of_slice hget
      have hgather : grGatherOne st e r slice.snapshotId slices = slice :: slices := by
        simp [grGatherOne, htaken, he, Option.filter]
      rw [hgather]
      refine .read hsum (hready.of_eq hrotx) htime ?_ (.inr ?_)
      · rw [hsnapshot, ptrArraySet_get hget, if_pos rfl]
        rfl
      · have hcard := congrArg Multiset.card hsum
        rw [Multiset.card_add, card_grScattered, Multiset.coe_card, List.length_map,
          List.length_cons] at hcard
        rw [grReceived_eq] at hmore
        dsimp only at hmore
        rw [List.length_cons]
        omega
    · rw [grGatherOne_none (by rw [htaken]; rintro ⟨⟩)
        (by rw [he]; rintro _ ⟨⟩; exact Ne.symm hid)]
      rw [hother hid, zero_add] at h
      refine h.same ?_ fun _ _ _ _ hready => hready.of_eq hrotx
      rw [hsnapshot, ptrArraySet_get hget, if_neg hid]
  | answer slice snapshot rotx₀ he hget hlast hfor hpieces hrotx hsnapshot houts =>
    obtain ⟨hown, htaken⟩ := grSliceTaken_some s st he
    have hstep : GrTxStep s st e r :=
      .answer slice snapshot rotx₀ he hget hlast hfor hpieces hrotx hsnapshot houts
    rw [hown] at h
    rw [hpieces, Pi.zero_apply, zero_add]
    by_cases hid : id = slice.snapshotId
    · subst hid
      rw [GrTx.one_self] at h
      obtain ⟨rotx, time, hready, htime, rfl, hsum⟩ := h.of_slice hget
      refine .free ?_ (by rw [hsnapshot, ptrArraySet_get hget, if_pos rfl])
      have hcard := congrArg Multiset.card hsum
      rw [Multiset.card_add, card_grScattered, Multiset.coe_card, List.length_map,
        List.length_cons] at hcard
      rw [grReceived_eq] at hlast
      dsimp only at hlast
      exact Multiset.card_eq_zero.mp (by omega)
    · rw [grGatherOne_none (by rw [htaken]; rintro ⟨⟩)
        (by rw [he]; rintro _ ⟨⟩; exact Ne.symm hid)]
      rw [hother hid, zero_add] at h
      refine h.same ?_ fun rotx snapshot' hget' hrequest hready => ?_
      · rw [hsnapshot, ptrArraySet_get hget, if_neg hid]
      · rcases hready.step hstep with hready | ⟨slice', snapshot'', he', hget'', hrequest'⟩
        · exact hready
        · cases he.symm.trans he'
          exact absurd (honly _ _ _ _ hget'' hget' (hrequest.trans hrequest'.symm)) hid

end Step

/-! ## 2. Who has read a slice -/

/-- The slice that an event brings to a server. -/
def GrEvent.slice? : GrEvent c → Option (GrSliceResponse c)
  | .sliceResponse slice => some slice
  | .sliceResponseLocked slice => some slice
  | .sliceResponseUnlocked slice => some slice
  | _ => none

/-- A slice for the server `s` has been read by the owner of its key at its time, which the stable
time of the owner had reached. -/
structure GrRead (h : List (GrAct c)) (s : ServerId c) (slice : GrSliceResponse c) : Prop where
  owner : ∃ t e st r, .server (lpidForKey s slice.key) t e st r ∈ h ∧
    .toServer s (.sliceResponse slice) ∈ r.outs ∧
    slice.read = getValueAt st.store slice.key (grIsValueVisibleSnapshot slice.snapshotTime)
  value : slice.value = valueOf slice.read
  updateTime : slice.updateTime = updateTimeOf slice.read
  stable : slice.snapshotTime ≤ slice.gst

theorem GrRead.more {h : List (GrAct c)} {s : ServerId c} {slice : GrSliceResponse c}
    (hr : GrRead h s slice) (a : GrAct c) : GrRead (a :: h) s slice := by
  obtain ⟨⟨t, e, st, r, hmem, hout, hread⟩, hvalue, htime, hstable⟩ := hr
  exact ⟨⟨t, e, st, r, List.mem_cons_of_mem a hmem, hout, hread⟩, hvalue, htime, hstable⟩

/-- A slice that is received is the one that its event brings. -/
theorem grSliceTaken_slice? {e : GrEvent c} {r : GrOutcome c} {slice : GrSliceResponse c}
    (h : grSliceTaken r e = some slice) : e.slice? = some slice := by
  cases e with
  | sliceResponse slice' =>
    simp only [grSliceTaken, Option.ite_none_right_eq_some] at h
    exact h.2
  | sliceResponseUnlocked slice' => exact h
  | _ => cases h

/-- Every slice that an event brings has been read. -/
def GrSlicesRead (h : List (GrAct c)) (x : (ServerId c ⊕ ClientId c) × GrEvent c) : Prop :=
  ∀ slice, x.2.slice? = some slice → ∀ s, x.1 = .inl s → GrRead h s slice

theorem grSlicesRead_none {h : List (GrAct c)} {x : (ServerId c ⊕ ClientId c) × GrEvent c}
    (hx : x.2.slice? = none) : GrSlicesRead h x := by
  intro slice hslice
  rw [hx] at hslice
  cases hslice

theorem GrEvent.Other.slice? {e : GrEvent c} (h : e.Other) : e.slice? = none := by
  cases e <;> first | exact h.elim | rfl

theorem grUpdateGst_slice? (st : GrServerState c) (gst : ℚ) :
    ∀ o ∈ (grUpdateGst st gst).2, o.event.slice? = none := by
  intro o ho
  obtain ⟨id, rotx, -, rfl⟩ := grUpdateGst_out ho
  rfl

theorem grSend_slice? {lpid : Lpid c} {e : GrEvent c} (h : e.slice? = none) :
    (grSend lpid e).event.slice? = none := by
  cases lpid <;> exact h

/-- A slice that a handler sends was read there, or is passed on. -/
theorem GrWork.slicesRead {h : List (GrAct c)} {s : ServerId c} {t : ℚ} {st st₀ : GrServerState c}
    {e : GrEvent c} {r : GrOutcome c} (hw : GrWork s st e r) (hst : st.store = st₀.store)
    (hformed : GrFormed s st) (haddr : GrAddressed (.inl s, e))
    (hstable : ∀ request, e = .sliceRequestUnlocked request → request.snapshotTime ≤ st.gst)
    (hread : GrSlicesRead h (.inl s, e)) :
    ∀ x ∈ r.placed s, GrSlicesRead (.server s t e st₀ r :: h) x := by
  have hnone : (∀ o ∈ r.outs, o.event.slice? = none) →
      (∀ e ∈ r.cont.event?, e.slice? = none) →
        ∀ x ∈ r.placed s, GrSlicesRead (.server s t e st₀ r :: h) x :=
    fun houts hcont => Outcome.forall_placed (fun o ho => grSlicesRead_none (houts o ho))
      fun e he => grSlicesRead_none (hcont e he)
  have hpass : ∀ {e' : GrEvent c}, e'.slice? = e.slice? →
      GrSlicesRead (.server s t e st₀ r :: h) (.inl s, e') := by
    intro e' he' slice hslice s' hs'
    exact (hread slice (he' ▸ hslice) s' hs').more _
  cases hw with
  | other _ _ _ _ _ hnew => exact fun x hx => grSlicesRead_none (hnew x hx).slice?
  | wake _ gst others _ hplaced hothers =>
    rw [hplaced]
    intro x hx
    rcases List.mem_append.mp hx with hx | hx
    · obtain ⟨o, ho, rfl⟩ := List.mem_map.mp hx
      exact grSlicesRead_none (grUpdateGst_slice? st gst o ho)
    · exact grSlicesRead_none (hothers x hx).slice?
  | getForward _ hcont =>
    exact hnone (List.forall_mem_singleton.mpr rfl) fun e he => (hcont e he).slice?
  | getOpen => exact hnone (List.forall_mem_nil _) (by rintro _ ⟨⟩; rfl)
  | getServe => exact hnone (List.forall_mem_singleton.mpr (grSend_slice? rfl)) (by rintro _ ⟨⟩)
  | getLocked => exact hnone (grUpdateGst_slice? st _) (by rintro _ ⟨⟩; rfl)
  | getUnlocked => exact hnone (List.forall_mem_singleton.mpr (grSend_slice? rfl)) (by rintro _ ⟨⟩)
  | getResponse => exact hnone (List.forall_mem_singleton.mpr rfl) (by rintro _ ⟨⟩)
  | putForward => exact hnone (List.forall_mem_singleton.mpr rfl) (by rintro _ ⟨⟩)
  | putDefer => exact hnone (List.forall_mem_singleton.mpr rfl) (by rintro _ ⟨⟩)
  | putOpen => exact hnone (List.forall_mem_nil _) (by rintro _ ⟨⟩; rfl)
  | putLocked => exact hnone (List.forall_mem_nil _) (by rintro _ ⟨⟩; rfl)
  | putUnlocked =>
    refine hnone (List.forall_mem_cons.mpr ⟨grSend_slice? rfl, fun o ho => ?_⟩) (by rintro _ ⟨⟩)
    split at ho
    · cases ho
    · obtain ⟨s', -, rfl⟩ := List.mem_map.mp ho
      rfl
  | putResponse => exact hnone (List.forall_mem_singleton.mpr rfl) (by rintro _ ⟨⟩)
  | rotxRequest =>
    refine hnone (fun o ho => ?_) (by rintro _ ⟨⟩)
    dsimp only at ho
    split at ho
    · cases ho
    · obtain rfl := List.mem_singleton.mp ho
      rfl
  | snapshotRequest => exact hnone (List.forall_mem_nil _) (by rintro _ ⟨⟩; rfl)
  | snapshotLocked => exact hnone (grUpdateGst_slice? st _) (by rintro _ ⟨⟩; rfl)
  | snapshotUnlocked =>
    refine hnone (fun o ho => ?_) (by rintro _ ⟨⟩)
    obtain ⟨i, hi, rfl⟩ := List.mem_mapIdx.mp ho
    rfl
  | sliceRequest => exact hnone (List.forall_mem_nil _) (by rintro _ ⟨⟩; rfl)
  | sliceLocked => exact hnone (grUpdateGst_slice? st _) (by rintro _ ⟨⟩; rfl)
  | @sliceServe _ request he hkey =>
    refine Outcome.forall_placed (List.forall_mem_singleton.mpr ?_) (by rintro _ ⟨⟩)
    rintro slice hslice s' hs'
    cases hslice
    cases hs'
    have howner : lpidForKey request.fromLpid request.key = s := by
      rcases he with rfl | ⟨rfl, -⟩ <;> exact haddr
    have htime : request.snapshotTime ≤ st.gst := by
      rcases he with rfl | ⟨-, hle⟩
      · exact hstable request rfl
      · exact hle
    refine ⟨⟨t, e, st₀, { state := st
                          outs := [.toServer request.fromLpid
                            (.sliceResponse (grSliceAnswer st request))] }, ?_, ?_, ?_⟩,
      rfl, rfl, htime⟩
    · have hhome : lpidForKey request.fromLpid (grSliceAnswer st request).key = s := howner
      rw [hhome]
      exact List.mem_cons_self
    · exact List.mem_singleton_self _
    · simp only [grSliceAnswer, getValueAt, hst]
  | sliceResponse =>
    refine Outcome.forall_placed (List.forall_mem_nil _) ?_
    rintro _ ⟨⟩
    exact hpass rfl
  | receiveLocked =>
    refine Outcome.forall_placed (fun o ho => ?_) ?_
    · exact grSlicesRead_none (grUpdateGst_slice? st _ o ho)
    · rintro _ ⟨⟩
      exact hpass rfl
  | receive => exact hnone (List.forall_mem_nil _) (by rintro _ ⟨⟩)
  | receiveLast => exact hnone (List.forall_mem_singleton.mpr rfl) (by rintro _ ⟨⟩)
  | abroad _ hget hclient => exact absurd (hformed.snapshot _ _ hget) hclient

section Runs

variable {setup : Setup c (GrEvent c)} {Q : GrAct c → Prop} {M : GrMail c} {h : List (GrAct c)}

/-- **Every slice that is under way to a server has been read by the owner of its key.** -/
theorem gr_slices_read (hr : Mail.Run (grProgram c) Q (grWorld setup).config.mail M h) :
    ∀ x ∈ M.events, GrSlicesRead h x := by
  refine hr.flow_past GrSlicesRead ?_ ?_ ?_ ?_
  · intro a h x hx slice hslice s hs
    exact (hx slice hslice s hs).more a
  · intro M h s t e r hrun hmem hserve he
    have hformed := gr_formed hrun
    refine (grProcessEvent_work (grServerProcessEvent_some hserve)).slicesRead rfl
      ((hformed.1 s).of_eq rfl rfl rfl rfl) (hformed.2 _ hmem) ?_ he
    rintro request rfl
    exact (gr_true hrun).2 _ hmem
  · intro M h k t decision e r hrun hclient x hx
    obtain ⟨st', -, -, hasks⟩ := grClientProcessEvent_asks hclient
    cases hasks x hx <;> exact grSlicesRead_none rfl
  · intro x hx
    rcases Setup.mem_mail hx with ⟨s, rfl, -⟩ | ⟨s, rfl⟩ | ⟨k, rfl⟩ <;> exact grSlicesRead_none rfl

theorem grGathered_client {k : ClientId c} {t : ℚ} {e : GrEvent c} {st : GrClientState c}
    {r : GrClientState c × List (GrOut c)} (s : ServerId c) (id : ℕ) :
    grGathered s id (.client k t e st r :: h) = grGathered s id h :=
  gathered_of_neither rfl rfl

theorem grGathered_elsewhere {s s' : ServerId c} {t : ℚ} {e : GrEvent c} {st : GrServerState c}
    {r : GrOutcome c} (hs : s' ≠ s) (id : ℕ) :
    grGathered s id (.server s' t e st r :: h) = grGathered s id h :=
  gathered_of_neither (decide_eq_false fun hand => hs hand.1) (if_neg hs)

theorem grGathered_server {s : ServerId c} {t : ℚ} {e : GrEvent c} {st : GrServerState c}
    {r : GrOutcome c} (id : ℕ) :
    grGathered s id (.server s t e st r :: h) = grGatherOne st e r id (grGathered s id h) := by
  simp [grGathered, gathered, grGatherOne]

/-- The slices of a slot have been read, and the account of the slot is in order. -/
structure GrGathered (s : ServerId c) (id : ℕ) (h : List (GrAct c)) (pieces : Multiset (GrPiece c))
    (server : ServerId c → GrServerState c) : Prop where
  read : ∀ slice ∈ grGathered s id h, GrRead h s slice
  phase : GrPhase id (grGathered s id h) pieces (server s)

/-- **The account of every slot is in order in every state of a run.** -/
theorem gr_gathered (hr : Mail.Run (grProgram c) Q (grWorld setup).config.mail M h)
    (s : ServerId c) (id : ℕ) :
    GrGathered s id h (M.events.map fun x => grPieces x (.snapshot s id)).sum M.server := by
  refine hr.account (fun x => grPieces x (.snapshot s id)) (GrGathered s id) ?_ ?_ ?_
  · intro M h s' t e r mail hrun hev hserve hacc
    have hformed := gr_formed hrun
    have hmem : (.inl s', e) ∈ M.events := by rw [hev]; exact Multiset.mem_cons_self _ _
    have hst : GrFormed s' { M.server s' with now := t, clock := c.clock s' t } :=
      (hformed.1 s').of_eq rfl rfl rfl rfl
    have hstep := (grProcessEvent_work (grServerProcessEvent_some hserve)).txStep hst
    rw [← sum_placed_apply]
    by_cases hs : s' = s
    · subst hs
      refine ⟨fun slice hslice => ?_, ?_⟩
      · rw [grGathered_server, grGatherOne] at hslice
        split at hslice
        · cases hslice
        · rcases List.mem_append.mp hslice with hslice | hslice
          · obtain ⟨htaken, -⟩ := Option.filter_eq_some_iff.mp (Option.mem_toList.mp hslice)
            exact (gr_slices_read hrun _ hmem slice (grSliceTaken_slice? htaken) s' rfl).more _
          · exact (hacc.read slice hslice).more _
      · rw [Function.update_self, grGathered_server]
        have hphase : GrPhase id (grGathered s' id h) (grPieces (.inl s', e) (.snapshot s' id) +
            (mail.map fun x => grPieces x (.snapshot s' id)).sum)
            { M.server s' with now := t, clock := c.clock s' t } :=
          hacc.phase.same rfl fun _ _ _ _ hready => hready.of_eq rfl
        refine hphase.step hstep ?_ ?_ ?_
        · rintro request rfl
          have hpiece : .ready request ∈
              (M.events.map fun x => grPieces x (.rotx s' request.requestId)).sum := by
            rw [hev, Multiset.map_cons, Multiset.sum_cons, grPieces, GrTx.one_self]
            exact Multiset.mem_add.mpr (.inl (Multiset.mem_singleton_self _))
          obtain ⟨rotx, hready, -, heq⟩ := gr_ready hrun s' request.requestId _ hpiece
          cases heq
          exact ⟨rotx, hready.of_eq rfl, rfl⟩
        · exact fun rotx hready => ((gr_true hrun).1 s').rotx _ rotx hready.get hready.idle
        · exact fun id id' snapshot snapshot' hget hget' hrequest =>
            (gr_snapshot_rotx hrun hget).2.1 id' snapshot' hget' hrequest
    · rw [hstep.elsewhere (by rintro _ ⟨⟩) (by rintro _ ⟨⟩) (by rintro _ ⟨⟩; exact hs rfl)]
      refine ⟨?_, ?_⟩
      · rw [grGathered_elsewhere hs]
        exact fun slice hslice => (hacc.read slice hslice).more _
      · rw [grGathered_elsewhere hs, Function.update_of_ne (Ne.symm hs)]
        exact hacc.phase
  · intro M h k t decision e r mail hrun hev hclient hacc
    have hzero : ((placedOfClient k r.2).map fun x => grPieces x (.snapshot s id)).sum = 0 := by
      rw [← sum_placed_apply]
      rcases (grClientProcessEvent_pieces hclient).2 with ⟨hzero, -⟩ | ⟨request, _, -, hone, -⟩
      · rw [hzero]
        rfl
      · rw [hone]
        exact GrTx.one_of_ne (by rintro ⟨⟩) _
    rw [(grClientProcessEvent_pieces hclient).1, Pi.zero_apply] at hacc
    rw [hzero]
    refine ⟨?_, ?_⟩
    · rw [grGathered_client]
      exact fun slice hslice => (hacc.read slice hslice).more _
    · rw [grGathered_client]
      exact hacc.phase
  · rw [grPieces_start]
    exact ⟨List.forall_mem_nil _, .free rfl rfl⟩

end Runs

/-! ## 3. Scatter and gather -/

/-- The answer to a transaction: every key has been read once, all at one time that is late enough,
by the owners of the keys, and the answer says just what they have read. -/
structure GrAnswered (h : List (GrAct c)) (k : ClientId c) (request : GrGetRotxRequest c)
    (response : GrGetRotxResponse c) (time : ℚ) (slices : List (GrSliceResponse c)) : Prop where
  dependencyTime : request.dependencyTime ≤ time
  gst : request.gst ≤ time
  count : slices.length = request.keys.length
  places : (slices.map fun slice => (slice.keyId, slice.key)).Perm
    (request.keys.mapIdx fun i key => (i, key))
  times : ∀ slice ∈ slices, slice.snapshotTime = time
  read : ∀ slice ∈ slices, GrRead h k.server slice
  length : response.values.length = request.keys.length
  values : ∀ slice ∈ slices, response.values[slice.keyId]? = some slice.value
  latest : IsGreatest {u | ∃ slice ∈ slices, slice.updateTime = u} response.updateTimestamp
  stable : time ≤ response.gst

/-- The transaction of a client is under way: it has been sent, or it waits for the stable time, or
its snapshot has been asked for, or something is to be done for its snapshot. -/
inductive GrUnderway (k : ClientId c) (M : GrMail c) : Prop
  | sent {request : GrGetRotxRequest c} (hclient : request.client = k)
      (hmem : (.inl k.server, .rotxRequest request) ∈ M.events)
  | waits {id : ℕ} {rotx : GrRotxState c}
      (hget : ptrArrayGet (M.server k.server).rotxStates id = some rotx)
      (hclient : rotx.client = k) (hwait : rotx.waitingGst)
  | ready {id : ℕ} {rotx : GrRotxState c}
      (hget : ptrArrayGet (M.server k.server).rotxStates id = some rotx)
      (hclient : rotx.client = k)
      (hmem : (.inl k.server, .getSnapshotRequest rotx.snapshotRequest) ∈ M.events)
  | reads {id id' : ℕ} {rotx : GrRotxState c} {snapshot : GrSnapshotState c}
      {x : (ServerId c ⊕ ClientId c) × GrEvent c}
      (hget : ptrArrayGet (M.server k.server).rotxStates id = some rotx)
      (hclient : rotx.client = k)
      (hsnapshot : ptrArrayGet (M.server k.server).snapshotStates id' = some snapshot)
      (hrequest : snapshot.requestId = id) (hmem : x ∈ M.events)
      (hpiece : grPieces x (.snapshot k.server id') ≠ 0)

section Runs

variable {setup : Setup c (GrEvent c)} {Q : GrAct c → Prop} {M : GrMail c} {h : List (GrAct c)}

/-- The account of a slot that is in use says that something is to be done for it. -/
theorem GrPhase.pieces_ne_zero {id : ℕ} {slices : List (GrSliceResponse c)}
    {pieces : Multiset (GrPiece c)} {st : GrServerState c} {snapshot : GrSnapshotState c}
    (hphase : GrPhase id slices pieces st) (hget : ptrArrayGet st.snapshotStates id = some snapshot)
    (hkeys : snapshot.keys ≠ []) : pieces ≠ 0 := by
  rintro rfl
  cases hphase with
  | free _ hnone =>
    rw [hnone] at hget
    cases hget
  | taken hpieces => exact Multiset.singleton_ne_zero _ hpieces.symm
  | timed hpieces => exact Multiset.singleton_ne_zero _ hpieces.symm
  | @read rotx time hpieces _ _ hsome hmore =>
    rw [hsome] at hget
    cases hget
    rw [grReceived_eq] at hkeys
    have hlt := hmore.resolve_left hkeys
    have hcard := congrArg Multiset.card hpieces
    rw [zero_add, card_grScattered, Multiset.coe_card, List.length_map] at hcard
    omega

/-- The keys of a snapshot are those of its transaction. -/
theorem GrPhase.keys {id : ℕ} {slices : List (GrSliceResponse c)} {pieces : Multiset (GrPiece c)}
    {st : GrServerState c} {snapshot : GrSnapshotState c} {rotx : GrRotxState c}
    (hphase : GrPhase id slices pieces st) (hget : ptrArrayGet st.snapshotStates id = some snapshot)
    (hrotx : ptrArrayGet st.rotxStates snapshot.requestId = some rotx) :
    snapshot.keys = rotx.snapshotRequest.keys := by
  cases hphase with
  | free _ hnone =>
    rw [hnone] at hget
    cases hget
  | taken _ hready hsome =>
    rw [hsome] at hget
    cases hget
    cases hready.get.symm.trans hrotx
    rfl
  | timed _ hready _ hsome =>
    rw [hsome] at hget
    cases hget
    cases hready.get.symm.trans hrotx
    rfl
  | read _ hready _ hsome =>
    rw [hsome] at hget
    cases hget
    rw [grReceived_eq] at hrotx ⊢
    cases hready.get.symm.trans hrotx
    rfl

/-- **A transaction that was not answered is under way.** -/
theorem gr_underway (hr : Mail.Run (grProgram c) Q (grWorld setup).config.mail M h)
    {k : ClientId c} {request : GrGetRotxRequest c} (hasked : grAsked k h = some request)
    (hkeys : request.keys ≠ []) : GrUnderway k M := by
  have hpending := (gr_account hr k).pending
  rw [hasked] at hpending
  cases hpending with
  | sent hclient hpieces =>
    have hpiece : .asked k.server request ∈ (M.events.map fun x => grPieces x (.client k)).sum := by
      rw [hpieces]
      exact Multiset.mem_singleton_self _
    obtain ⟨x, hx, hp⟩ := exists_of_mem_sum_map hpiece
    obtain ⟨s, request', rfl, hk, heq⟩ := mem_grPieces_client hp
    cases heq
    exact .sent hk hx
  | @held _ id rotx hclient _ hget hfor honly =>
    have hk : rotx.client = k := hfor.client.trans hclient
    cases hwait : rotx.waitingGst with
    | true => exact .waits hget hk hwait
    | false =>
      have htotal := gr_balanced hr (.rotx k.server id)
      rw [grTotal_slot (.inr (.inr rfl)), grHeld_rotx ((gr_formed hr).1 k.server), hget,
        Option.elim_some, hwait, if_neg (by rintro ⟨⟩)] at htotal
      -- one reference is owed: a request for a snapshot, or a snapshot
      by_cases hrefs : (M.events.map fun x => grRefs x (.rotx k.server id)).sum = 0
      · obtain ⟨id', snapshot, hsnapshot, hne⟩ := exists_of_ptrArraySum_ne_zero
          (fun hzero => by rw [hrefs, hzero] at htotal; cases htotal)
        have hrequest : snapshot.requestId = id := by
          by_contra hid
          exact hne (if_neg hid)
        have hphase := (gr_gathered hr k.server id').phase
        have hall : snapshot.keys ≠ [] := by
          rw [hphase.keys hsnapshot (hrequest ▸ hget), hfor.snapshotRequest]
          exact hkeys
        obtain ⟨x, hx, hpiece⟩ := exists_of_sum_map_ne_zero (hphase.pieces_ne_zero hsnapshot hall)
        exact .reads hget hk hsnapshot hrequest hx hpiece
      · obtain ⟨x, hx, hne⟩ := exists_of_sum_map_ne_zero hrefs
        obtain ⟨request', rfl, hid⟩ := of_grRefs_rotx hne
        have hpiece : .ready request' ∈
            (M.events.map fun x => grPieces x (.rotx k.server id)).sum := by
          obtain ⟨rest, hrest⟩ := Multiset.exists_cons_of_mem hx
          rw [hrest, Multiset.map_cons, Multiset.sum_cons, ← hid, grPieces, GrTx.one_self]
          exact Multiset.mem_add.mpr (.inl (Multiset.mem_singleton_self _))
        obtain ⟨rotx', hready, hid', heq⟩ := gr_ready hr k.server id _ hpiece
        cases heq
        have hsame : rotx' = rotx := Option.some.inj ((hid' ▸ hready.get).symm.trans hget)
        exact .ready hget hk (hsame ▸ hx)

/-- What has been read is no version, or has a positive time. -/
theorem GrRead.updateTime_nonneg {C : GrCond c}
    {A : Config (ServerId c) (ClientId c) (GrEvent c) (GrServerState c) (GrClientState c)}
    (hr : Run (grProgram c) C (grWorld setup).config A h) {l : List (GrAct c)} (hl : l ⊆ h)
    {s : ServerId c} {slice : GrSliceResponse c} (hread : GrRead l s slice) :
    0 ≤ slice.updateTime := by
  obtain ⟨⟨t, e, st, r, hmem, -, hitem⟩, -, htime, -⟩ := hread
  obtain ⟨l₁, l₂, hh⟩ := List.append_of_mem (hl hmem)
  obtain ⟨N, N', hrun, hstep⟩ := hr.before hh
  rw [htime, hitem, getValueAt]
  cases hf : (st.store slice.key).find? (grIsValueVisibleSnapshot slice.snapshotTime) with
  | none => exact le_rfl
  | some item =>
    cases hstep with
    | serve =>
      exact ((gr_descending hrun _ slice.key).2 item (List.mem_of_find?_eq_some hf)).le

theorem List.Perm.of_pieces {slices : List (GrSliceResponse c)} {keys : List Key} {time : ℚ}
    (h : ((slices.map GrSliceResponse.piece : List (GrPiece c)) : Multiset (GrPiece c)) =
      grScattered keys time) : (slices.map fun slice => (slice.keyId, slice.key)).Perm
        (keys.mapIdx fun i key => (i, key)) := by
  have hperm := (Multiset.coe_eq_coe.mp h).map fun
    | .slice i key _ => (i, key)
    | _ => (0, 0)
  rw [List.map_map, List.mapIdx_eq_zipIdx_map, List.map_map] at hperm
  rw [List.mapIdx_eq_zipIdx_map]
  exact hperm

/-- The answer that is put together from all slices of a transaction. -/
theorem GrAnswered.of_slices {k : ClientId c} {id : ℕ} {rotx : GrRotxState c}
    {request : GrGetRotxRequest c} {time : ℚ} {slices : List (GrSliceResponse c)}
    (hfor : rotx.For k.server id request) (htime : GrTimed rotx time) (hne : slices ≠ [])
    (hall : ((slices.map GrSliceResponse.piece : List (GrPiece c)) : Multiset (GrPiece c)) =
      grScattered rotx.snapshotRequest.keys time)
    (hread : ∀ slice ∈ slices, GrRead h k.server slice)
    (hpos : ∀ slice ∈ slices, 0 ≤ slice.updateTime) :
    GrAnswered h k request (grRotxAnswer rotx (grSnapshotAnswer
      (grReceived rotx.snapshotRequest time slices))) time slices := by
  have hkeys : rotx.snapshotRequest.keys = request.keys := by rw [hfor.snapshotRequest]
  rw [hkeys] at hall
  have hperm := List.Perm.of_pieces hall
  have hcount : slices.length = request.keys.length := by
    simpa using hperm.length_eq
  have htimes : ∀ slice ∈ slices, slice.snapshotTime = time := by
    intro slice hslice
    have hpiece : slice.piece ∈ grScattered request.keys time :=
      hall ▸ Multiset.mem_coe.mpr (List.mem_map_of_mem hslice)
    obtain ⟨i, key, heq⟩ := mem_grScattered hpiece
    cases heq
    rfl
  rw [grReceived_eq]
  refine ⟨hfor.dependencyTime ▸ htime.dependencyTime, ?_, hcount, hperm, htimes, hread, ?_, ?_, ?_,
    ?_⟩
  · have hgst := htime.gst
    rwa [hfor.snapshotRequest] at hgst
  · simp [grRotxAnswer, grSnapshotAnswer, hkeys]
  · intro slice hslice
    have hlt : slice.keyId < request.keys.length := by
      have hmem := hperm.mem_iff.mp (List.mem_map_of_mem hslice)
      obtain ⟨i, hi, heq⟩ := List.mem_mapIdx.mp hmem
      obtain rfl : i = slice.keyId := congrArg Prod.fst heq
      exact hi
    refine getElem?_fillIn ?_ (List.mem_map_of_mem hslice) ?_
    · have hnodup := nodup_of_perm_mapIdx hperm
      rw [List.map_map] at hnodup ⊢
      exact hnodup
    · rw [List.length_replicate, hkeys]
      exact hlt
  · have hgreatest := isGreatest_foldr_max (b := 0) (l := slices.map GrSliceResponse.updateTime)
      (by simpa using hne) (List.forall_mem_map.mpr hpos)
    have hset : {u | ∃ slice ∈ slices, slice.updateTime = u} =
        {u | u ∈ slices.map GrSliceResponse.updateTime} := by
      ext u
      exact List.mem_map.symm
    rw [hset]
    exact hgreatest
  · obtain ⟨slice, hslice⟩ := List.exists_mem_of_ne_nil slices hne
    have hle : slice.gst ≤ (slices.map GrSliceResponse.gst).foldr max 0 :=
      (foldr_max_le_iff.mp le_rfl).2 _ (List.mem_map_of_mem hslice)
    exact ((htimes slice hslice) ▸ (hread slice hslice).stable).trans hle

/-- **The step in which a transaction is answered.**  Its last slice is received. -/
theorem gr_rotx_answered {C : GrCond c}
    {A : Config (ServerId c) (ClientId c) (GrEvent c) (GrServerState c) (GrClientState c)}
    (hr : Run (grProgram c) C (grWorld setup).config A h) {later past : List (GrAct c)} {a : GrAct c}
    (hh : h = later ++ a :: past) {k : ClientId c} {response : GrGetRotxResponse c}
    (hmem : response ∈ grRotxAnswers k a) :
    grRotxAnswers k a = [response] ∧ grRotxAsks k a = [] ∧ ∃ request time id,
      grAsked k past = some request ∧ GrAnswered (a :: past) k request response time
        (grGathered k.server id (a :: past)) := by
  obtain ⟨N, N', hrun, hstep⟩ := hr.before hh
  have hmail := hrun.mail (Q := fun _ => True) fun _ _ => trivial
  have hstep := hstep.mail
  generalize N.mail = M at hmail hstep
  generalize N'.mail = M' at hstep
  cases hstep with
  | client => cases hmem
  | @serve s t e r mail hev ht hserve =>
    have hst : GrFormed s { M.server s with now := t, clock := c.clock s t } :=
      ((gr_formed hmail).1 s).of_eq rfl rfl rfl rfl
    have htx := (grProcessEvent_work (grServerProcessEvent_some hserve)).txStep hst
    have hsilent : grRotxAnswersTo k r.outs ≠ [] := List.ne_nil_of_mem hmem
    cases htx with
    | pass _ _ _ _ hanswers => exact absurd (hanswers k) hsilent
    | ask _ _ _ _ _ hanswers => exact absurd (hanswers k) hsilent
    | take _ _ _ _ _ hanswers => exact absurd (hanswers k) hsilent
    | lock _ _ _ _ _ _ _ hanswers => exact absurd (hanswers k) hsilent
    | scatter _ _ _ _ _ _ _ hanswers => exact absurd (hanswers k) hsilent
    | receive _ _ _ _ _ _ _ _ hanswers => exact absurd (hanswers k) hsilent
    | answer slice snapshot rotx he hget hlast hfor hpieces hrotx hsnapshot houts =>
      have hk : rotx.client = k := by
        by_contra hne
        exact hsilent (by simp [grRotxAnswersTo, houts, hne])
      have hone : grRotxAnswers k (.server s t e (M.server s) r) =
          [grRotxAnswer rotx (grSnapshotAnswer (grReceiveSlice snapshot slice))] := by
        simp [grRotxAnswers, grRotxAnswersTo, houts, hk]
      rw [hone] at hmem ⊢
      obtain rfl := List.mem_singleton.mp hmem
      refine ⟨rfl, rfl, ?_⟩
      -- whose transaction it is
      have haccount := gr_account hmail k
      obtain rfl : s = k.server := by
        by_contra hne
        exact haccount.elsewhere s hne _ rotx hfor hk
      have hpending := haccount.pending
      generalize hasked : grAsked k past = asked at hpending
      cases hpending with
      | idle _ hfree => exact absurd hk (hfree _ rotx hfor)
      | sent _ _ hfree => exact absurd hk (hfree _ rotx hfor)
      | @held request id rotx' _ _ hget' hfor' honly =>
        obtain rfl := honly _ rotx hfor hk
        cases hget'.symm.trans hfor
        -- which slices it has received
        have hacc := gr_gathered hmail k.server slice.snapshotId
        obtain ⟨hown, htaken⟩ := grSliceTaken_some k.server (M.server k.server) he
        have hphase := hacc.phase
        rw [hev, Multiset.map_cons, Multiset.sum_cons, hown, GrTx.one_self] at hphase
        obtain ⟨rotx', time, hready, htime, hsnap, hsum⟩ := hphase.of_slice hget
        have hid : snapshot.requestId = rotx'.snapshotRequest.requestId := by
          rw [hsnap, grReceived_eq]
        obtain rfl : rotx' = rotx := Option.some.inj (hready.get.symm.trans (hid ▸ hfor))
        have hall : (((slice :: grGathered k.server slice.snapshotId past).map
            GrSliceResponse.piece : List (GrPiece c)) : Multiset (GrPiece c)) =
              grScattered rotx'.snapshotRequest.keys time := by
          generalize (mail.map fun x => grPieces x (.snapshot k.server slice.snapshotId)).sum =
            rest at hsum
          have hcard := congrArg Multiset.card hsum
          rw [Multiset.card_add, card_grScattered, Multiset.coe_card, List.length_map,
            List.length_cons] at hcard
          rw [hsnap, grReceived_eq] at hlast
          dsimp only at hlast
          obtain rfl := Multiset.card_eq_zero.mp (show rest.card = 0 by omega)
          rwa [zero_add] at hsum
        have hgather : grGathered k.server slice.snapshotId
            (.server k.server t e (M.server k.server) r :: past) =
              slice :: grGathered k.server slice.snapshotId past := by
          rw [grGathered_server]
          simp [grGatherOne, htaken, he, Option.filter]
        have hread : ∀ x ∈ slice :: grGathered k.server slice.snapshotId past,
            GrRead (.server k.server t e (M.server k.server) r :: past) k.server x := by
          intro x hx
          rcases List.mem_cons.mp hx with rfl | hx
          · have hbrought := gr_slices_read hmail _ (hev ▸ Multiset.mem_cons_self _ _)
            exact (hbrought x (grSliceTaken_slice? he) k.server rfl).more _
          · exact (hacc.read x hx).more _
        refine ⟨request, time, slice.snapshotId, rfl, ?_⟩
        rw [hgather, hsnap]
        refine .of_slices hfor' htime (List.cons_ne_nil _ _) hall hread fun x hx => ?_
        refine (hread x hx).updateTime_nonneg hr ?_
        rw [hh]
        exact List.subset_append_right _ _

/-- **Transactions are scattered and gathered.**  A client is sent one answer for every transaction
that it asks for, unless the transaction is still under way; the answer is put together from what
the owners of its keys returned at one snapshot time. -/
theorem gr_rotx_scatter_gather {C : GrCond c} {W : GrWorld c} {h : List (GrAct c)}
    (hrun : World.Run (grProgram c) setup.conf C (grWorld setup) W h) (k : ClientId c) :
    (∀ later a past, h = later ++ a :: past → ∀ response ∈ grRotxAnswers k a,
      grRotxAnswers k a = [response] ∧ ∃ request time id, grAsked k past = some request ∧
        GrAnswered (a :: past) k request response time (grGathered k.server id (a :: past))) ∧
    (h.flatMap (grRotxAsks k)).length = (h.flatMap (grRotxAnswers k)).length +
      (if (grAsked k h).isSome then 1 else 0) ∧
    ∀ request, grAsked k h = some request → request.keys ≠ [] →
      GrUnderway k W.config.mail := by
  have hr := hrun.config
  refine ⟨?_, ?_, ?_⟩
  · intro later a past hh response hmem
    obtain ⟨hone, -, hanswered⟩ := gr_rotx_answered hr hh hmem
    exact ⟨hone, hanswered⟩
  · refine length_flatMap_pending ?_ ?_
    · intro later a past hh hask
      obtain ⟨request, hmem⟩ := List.exists_mem_of_ne_nil _ hask
      obtain ⟨hone, hnone⟩ := gr_asks_once (hh ▸ hr) hmem
      refine ⟨by rw [hone, List.length_singleton], ?_, hnone⟩
      cases a with
      | server => cases hmem
      | client => rfl
    · intro later a past hh hanswers
      obtain ⟨response, hmem⟩ := List.exists_mem_of_ne_nil _ hanswers
      obtain ⟨hone, hnone, request, -, -, hasked, -⟩ := gr_rotx_answered hr hh hmem
      exact ⟨by rw [hone, List.length_singleton], hnone, Option.isSome_of_mem hasked⟩
  · intro request hasked hkeys
    exact gr_underway (hr.mail (Q := fun _ => True) fun _ _ => trivial) hasked hkeys

end Runs

/-- Two clients of the first partition. -/
def duoSetup : Setup duo (GrEvent duo) := duoSetupOf _

/-- Two transactions at once, the first one with a key that is repeated.  The last step receives
the last slice of the first transaction. -/
def twoRotxRun : List (ℕ × ℕ) :=
  [(3, 0), (3, 0), (3, 1), (3, 1), (3, 0), (3, 0), (3, 0), (3, 0), (3, 0), (3, 0), (3, 3), (3, 0),
    (7, 2), (6, 0), (8, 0), (3, 1), (3, 1), (3, 1), (3, 1), (3, 0), (4, 1), (5, 0), (6, 0), (7, 0),
    (8, 0), (3, 0), (3, 0), (6, 0), (3, 1)]

/-- The first client has been answered, with a value for each of its three keys. -/
theorem gr_rotx_scatter_gather_two :
    ∃ W h, World.Run (grProgram duo) duoSetup.conf (fun _ _ => True) (grWorld duoSetup) W h ∧
      ∃ a past response, h = a :: past ∧ response ∈ grRotxAnswers (clientAt duo 0 0 0) a ∧
        ∃ request time id, grAsked (clientAt duo 0 0 0) past = some request ∧
          request.keys.length = 3 ∧ GrAnswered h (clientAt duo 0 0 0) request response time
            (grGathered (serverAt duo 0 0) id h) := by
  obtain ⟨W, h, hrun, hseen⟩ := World.Run.of_replay (grProgram duo) duoSetup.conf (grWorld duoSetup)
    Cond.tested_true (choices twoRotxRun [(0, .rotx [0, 1, 0]), (1, .rotx [1, 0])] [])
    (fun x => x.2.head?.any fun a => (grRotxAnswers (clientAt duo 0 0 0) a).any fun response =>
      decide (response.values.length = 3)) (by decide +kernel)
  obtain ⟨a, ha, hanswers⟩ := (Option.any_eq_true _ _).mp hseen
  obtain ⟨past, rfl⟩ := List.head?_eq_some_iff.mp ha
  obtain ⟨response, hmem, hvalues⟩ := List.any_eq_true.mp hanswers
  obtain ⟨-, request, time, id, hasked, hanswered⟩ :=
    (gr_rotx_scatter_gather hrun (clientAt duo 0 0 0)).1 [] a past rfl response hmem
  exact ⟨W, _, hrun, a, past, response, rfl, hmem, request, time, id, hasked,
    hanswered.length.symm.trans (of_decide_eq_true hvalues), hanswered⟩

end CCSim
