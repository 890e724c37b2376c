/-
# The snapshots of a server (`gr`)

The slot of a snapshot is used by many events at once: by the event that starts it, then by a
request and an answer for every key.  In every state of a run the slot either is to be started or
has as many slices on their way as it has not received (`gr_open`), and it belongs to one live
transaction (`gr_snapshot_rotx`).  So the slot is not free before all its slices are back, and no
slice ever reaches the snapshot of another transaction.
-/
import CCSim.Gr.Requests

namespace CCSim

variable {c : Cluster}

/-! ## 1. References to snapshots -/

/-- The slot of a snapshot, with what is still to be done for it: it is to be started, or one of
its slices is on its way. -/
inductive GrSlot (c : Cluster)
  | start (s : ServerId c) (id : ℕ)
  | slice (s : ServerId c) (id : ℕ)
  deriving DecidableEq

def GrSlot.one (slot : GrSlot c) : GrSlot c → ℤ := Pi.single slot 1

@[simp]
theorem GrSlot.one_self (slot : GrSlot c) : slot.one slot = 1 := by simp [GrSlot.one]

@[simp]
theorem GrSlot.one_of_ne {slot slot' : GrSlot c} (h : slot' ≠ slot) : slot.one slot' = 0 := by
  simp [GrSlot.one, h]

def grSlots : (ServerId c ⊕ ClientId c) × GrEvent c → GrSlot c → ℤ
  | (.inl s, .getSnapshotRequestLocked id) => (GrSlot.start s id).one
  | (.inl s, .getSnapshotRequestUnlocked id) => (GrSlot.start s id).one
  | (_, .sliceRequest request) => (GrSlot.slice request.fromLpid request.snapshotId).one
  | (_, .sliceRequestLocked request) => (GrSlot.slice request.fromLpid request.snapshotId).one
  | (_, .sliceRequestUnlocked request) => (GrSlot.slice request.fromLpid request.snapshotId).one
  | (.inl s, .sliceResponse slice) => (GrSlot.slice s slice.snapshotId).one
  | (.inl s, .sliceResponseLocked slice) => (GrSlot.slice s slice.snapshotId).one
  | (.inl s, .sliceResponseUnlocked slice) => (GrSlot.slice s slice.snapshotId).one
  | _ => 0

theorem grSlots_nonneg (x : (ServerId c ⊕ ClientId c) × GrEvent c) (slot : GrSlot c) :
    0 ≤ grSlots x slot := by
  have hone : ∀ slot' : GrSlot c, 0 ≤ slot'.one slot := by
    intro slot'
    rw [GrSlot.one, Pi.single_apply]
    split <;> decide
  unfold grSlots
  split <;> first | exact hone _ | exact le_rfl

theorem grSlots_other {x : (ServerId c ⊕ ClientId c) × GrEvent c} (h : x.2.Other) :
    grSlots x = 0 := by
  obtain ⟨p, e⟩ := x
  cases e <;> first | exact h.elim | (cases p <;> rfl)

theorem sum_slots_eq_zero {l : List ((ServerId c ⊕ ClientId c) × GrEvent c)}
    (h : ∀ x ∈ l, grSlots x = 0) : (l.map grSlots).sum = 0 := by
  refine List.sum_eq_zero fun y hy => ?_
  obtain ⟨x, hx, rfl⟩ := List.mem_map.mp hy
  exact h x hx

/-- A request for a snapshot refers to no slot yet. -/
theorem grUpdateGst_slots (s : ServerId c) (st : GrServerState c) (gst : ℚ) :
    ∀ o ∈ (grUpdateGst st gst).2, grSlots (o.place s, o.event) = 0 := by
  intro o ho
  obtain ⟨id, rotx, -, rfl⟩ := grUpdateGst_out ho
  rfl

/-- What a handler call does to the snapshots of its server. -/
inductive GrSnapshotStep (s : ServerId c) (st : GrServerState c) (e : GrEvent c)
    (r : GrOutcome c) : Prop
  | same (hrefs : ((r.placed s).map grSlots).sum = grSlots (.inl s, e))
      (hslots : r.state.snapshotStates = st.snapshotStates)
  | take (request : GrGetSnapshotRequest c) (he : e = .getSnapshotRequest request)
      (hrefs : ((r.placed s).map grSlots).sum =
        (GrSlot.start s (ptrArrayFree st.snapshotStates)).one)
      (hslots : r.state.snapshotStates = ptrArrayPut request.state st.snapshotStates)
  | lock (id : ℕ) (snapshot : GrSnapshotState c) (gst time : ℚ)
      (he : e = .getSnapshotRequestLocked id)
      (hget : ptrArrayGet st.snapshotStates id = some snapshot)
      (hrefs : ((r.placed s).map grSlots).sum = (GrSlot.start s id).one)
      (hslots : r.state.snapshotStates =
        ptrArraySet st.snapshotStates id (some { snapshot with gst := gst, time := time }))
  | start (id : ℕ) (snapshot : GrSnapshotState c) (he : e = .getSnapshotRequestUnlocked id)
      (hget : ptrArrayGet st.snapshotStates id = some snapshot)
      (hrefs : ((r.placed s).map grSlots).sum = snapshot.keys.length • (GrSlot.slice s id).one)
      (hslots : r.state.snapshotStates = st.snapshotStates)
  | receive (slice : GrSliceResponse c) (snapshot : GrSnapshotState c)
      (he : e = .sliceResponse slice ∨ e = .sliceResponseUnlocked slice)
      (hget : ptrArrayGet st.snapshotStates slice.snapshotId = some snapshot)
      (hmore : snapshot.receivedValues + 1 ≠ snapshot.keys.length)
      (hrefs : ((r.placed s).map grSlots).sum = 0)
      (hslots : r.state.snapshotStates = ptrArraySet st.snapshotStates slice.snapshotId
        (some (grReceiveSlice snapshot slice)))
  | last (slice : GrSliceResponse c) (snapshot : GrSnapshotState c)
      (he : e = .sliceResponse slice ∨ e = .sliceResponseUnlocked slice)
      (hget : ptrArrayGet st.snapshotStates slice.snapshotId = some snapshot)
      (hlast : snapshot.receivedValues + 1 = snapshot.keys.length)
      (hrefs : ((r.placed s).map grSlots).sum = 0)
      (hslots : r.state.snapshotStates = ptrArraySet st.snapshotStates slice.snapshotId none)

theorem sum_grSliceRequests (s : ServerId c) (id : ℕ) (snapshot : GrSnapshotState c) :
    ((grSliceRequests s id snapshot).map fun o => grSlots (o.place s, o.event)).sum =
      snapshot.keys.length • (GrSlot.slice s id).one := by
  have hmem : ∀ y ∈ (grSliceRequests s id snapshot).map fun o => grSlots (o.place s, o.event),
      y = (GrSlot.slice s id).one := by
    intro y hy
    obtain ⟨o, ho, rfl⟩ := List.mem_map.mp hy
    obtain ⟨i, hi, rfl⟩ := List.mem_mapIdx.mp ho
    rfl
  rw [List.eq_replicate_of_mem hmem, List.sum_replicate, List.length_map, grSliceRequests,
    List.length_mapIdx]

theorem grSend_slots {s : ServerId c} {lpid : Lpid c} {e : GrEvent c}
    (h : ∀ p, grSlots (p, e) = 0) :
    grSlots ((grSend lpid e).place s, (grSend lpid e).event) = 0 := by
  cases lpid <;> exact h _

theorem GrWork.snapshotStep {s : ServerId c} {st : GrServerState c} {e : GrEvent c}
    {r : GrOutcome c} (hw : GrWork s st e r) (hst : GrFormed s st) : GrSnapshotStep s st e r := by
  have hnone : ∀ {outs : List (GrOut c)}, (∀ o ∈ outs, grSlots (o.place s, o.event) = 0) →
      (outs.map fun o => grSlots (o.place s, o.event)).sum = 0 := by
    intro outs h
    refine List.sum_eq_zero fun y hy => ?_
    obtain ⟨o, ho, rfl⟩ := List.mem_map.mp hy
    exact h o ho
  cases hw with
  | other he _ _ hsnapshot _ hnew =>
    refine .same ?_ hsnapshot
    rw [sum_slots_eq_zero fun x hx => grSlots_other (hnew x hx), grSlots_other he]
  | wake he gst others hstate hplaced hothers =>
    refine .same ?_ ?_
    · rw [hplaced, List.map_append, List.sum_append, List.map_map,
        sum_slots_eq_zero fun x hx => grSlots_other (hothers x hx), grSlots_other he, add_zero]
      exact hnone (grUpdateGst_slots s st gst)
    · rw [hstate, grUpdateGst_snapshotStates]
  | @getForward request cont _ hcont =>
    have hevent : cont.event?.elim 0 (fun e => grSlots (.inl s, e)) = (0 : GrSlot c → ℤ) := by
      cases hce : cont.event? with
      | none => rfl
      | some e => exact grSlots_other (x := (.inl s, e)) (hcont e hce)
    refine .same ?_ rfl
    rw [Outcome.sum_placed, hevent]
    rfl
  | getOpen => exact .same rfl rfl
  | getServe =>
    refine .same ?_ rfl
    rw [Outcome.sum_placed, hnone (List.forall_mem_singleton.mpr (grSend_slots ?_))]
    · rfl
    · rintro (_ | _) <;> rfl
  | @getLocked id getState hget =>
    refine .same ?_ (grUpdateGst_snapshotStates st _)
    rw [Outcome.sum_placed, hnone (grUpdateGst_slots s st getState.gst)]
    rfl
  | getUnlocked =>
    refine .same ?_ rfl
    rw [Outcome.sum_placed, hnone (List.forall_mem_singleton.mpr (grSend_slots ?_))]
    · rfl
    · rintro (_ | _) <;> rfl
  | getResponse => exact .same rfl rfl
  | putForward => exact .same rfl rfl
  | putDefer => exact .same rfl rfl
  | putOpen => exact .same rfl rfl
  | putLocked => exact .same rfl rfl
  | @putUnlocked id putState stamp hput hstamp =>
    refine .same ?_ rfl
    rw [Outcome.sum_placed, hnone (List.forall_mem_cons.mpr ⟨grSend_slots ?_, fun o ho => ?_⟩)]
    · rfl
    · rintro (_ | _) <;> rfl
    · split at ho
      · cases ho
      · obtain ⟨s', -, rfl⟩ := List.mem_map.mp ho
        rfl
  | putResponse => exact .same rfl rfl
  | rotxRequest =>
    refine .same ?_ rfl
    rw [Outcome.sum_placed, hnone fun o ho => ?_]
    · rfl
    · dsimp only at ho
      split at ho
      · cases ho
      · obtain rfl := List.mem_singleton.mp ho
        rfl
  | snapshotRequest => exact .take _ rfl (by rw [Outcome.sum_placed]; exact zero_add _) rfl
  | @snapshotLocked id snapshot hget =>
    refine .lock id snapshot 0 (grUpdateGst st snapshot.gst).1.gst rfl hget ?_
      (by rw [grUpdateGst_snapshotStates])
    rw [Outcome.sum_placed, hnone (grUpdateGst_slots s st snapshot.gst)]
    exact zero_add _
  | @snapshotUnlocked id snapshot hget =>
    refine .start id snapshot rfl hget ?_ rfl
    rw [Outcome.sum_placed, sum_grSliceRequests]
    exact add_zero _
  | sliceRequest => exact .same (by rw [Outcome.sum_placed]; exact zero_add _) rfl
  | @sliceLocked request =>
    refine .same ?_ (grUpdateGst_snapshotStates st _)
    rw [Outcome.sum_placed, hnone (grUpdateGst_slots s st request.snapshotTime)]
    exact zero_add _
  | sliceServe he =>
    refine .same ?_ rfl
    rcases he with rfl | ⟨rfl, -⟩ <;>
      simp [Outcome.sum_placed, Out.place, Out.event, Cont.event?, grSlots, grSliceAnswer]
  | sliceResponse => exact .same (by rw [Outcome.sum_placed]; exact zero_add _) rfl
  | @receiveLocked slice =>
    refine .same ?_ (grUpdateGst_snapshotStates st _)
    rw [Outcome.sum_placed, hnone (grUpdateGst_slots s st slice.gst)]
    exact zero_add _
  | @receive _ slice snapshot he hget hmore => exact .receive slice snapshot he hget hmore rfl rfl
  | @receiveLast _ slice snapshot rotx he hget hlast hrotx =>
    exact .last slice snapshot he hget hlast rfl rfl
  | abroad _ hget hclient => exact absurd (hst.snapshot _ _ hget) hclient

/-! ## 2. What is still to be done for a snapshot -/

/-- A slot that is free has nothing left to do; a snapshot is to be started, or as many slices are
on their way as have not been received. -/
def GrOpen (starts slices : ℤ) : Option (GrSnapshotState c) → Prop
  | none => starts = 0 ∧ slices = 0
  | some snapshot => starts = 1 ∧ slices = 0 ∧ snapshot.receivedValues = 0 ∨
      starts = 0 ∧ slices + snapshot.receivedValues = snapshot.keys.length

/-- **A handler call keeps the account of every snapshot**: `starts` and `slices` are what else is
on its way. -/
theorem GrSnapshotStep.open {s : ServerId c} {st : GrServerState c} {e : GrEvent c}
    {r : GrOutcome c} (hs : GrSnapshotStep s st e r) {id : ℕ} {starts slices : ℤ}
    (hstarts : 0 ≤ starts) (hslices : 0 ≤ slices)
    (h : GrOpen (starts + grSlots (.inl s, e) (.start s id))
      (slices + grSlots (.inl s, e) (.slice s id)) (ptrArrayGet st.snapshotStates id)) :
    GrOpen (starts + ((r.placed s).map grSlots).sum (.start s id))
      (slices + ((r.placed s).map grSlots).sum (.slice s id))
      (ptrArrayGet r.state.snapshotStates id) := by
  cases hs with
  | same hrefs hslots =>
    rw [hrefs, hslots]
    exact h
  | take request he hrefs hslots =>
    have hfree := ptrArrayFree_get st.snapshotStates
    rw [hrefs, hslots, ptrArrayPut_get]
    rw [he] at h
    by_cases hid : id = ptrArrayFree st.snapshotStates
    · subst hid
      rw [hfree] at h
      simp [GrOpen, grSlots] at h
      simp [GrOpen, h.1, h.2, GrGetSnapshotRequest.state]
    · simp [grSlots] at h
      simp [hid, h]
  | lock i snapshot gst time he hget hrefs hslots =>
    rw [hrefs, hslots, ptrArraySet_get hget]
    rw [he] at h
    by_cases hid : id = i
    · subst hid
      rw [hget] at h
      simp [GrOpen, grSlots] at h
      simp [GrOpen]
      omega
    · simp [hid, grSlots] at h
      simp [hid, h]
  | start i snapshot he hget hrefs hslots =>
    rw [hrefs, hslots]
    rw [he] at h
    by_cases hid : id = i
    · subst hid
      rw [hget] at h ⊢
      simp [GrOpen, grSlots] at h
      simp [GrOpen]
      omega
    · simp [hid, grSlots] at h
      simp [hid, h]
  | receive slice snapshot he hget hmore hrefs hslots =>
    have hev : grSlots (.inl s, e) = (GrSlot.slice s slice.snapshotId).one := by
      rcases he with rfl | rfl <;> rfl
    rw [hrefs, hslots, ptrArraySet_get hget]
    rw [hev] at h
    by_cases hid : id = slice.snapshotId
    · subst hid
      rw [hget] at h
      simp [GrOpen] at h
      simp [GrOpen, grReceiveSlice]
      omega
    · simp [hid] at h
      simp [hid, h]
  | last slice snapshot he hget hlast hrefs hslots =>
    have hev : grSlots (.inl s, e) = (GrSlot.slice s slice.snapshotId).one := by
      rcases he with rfl | rfl <;> rfl
    rw [hrefs, hslots, ptrArraySet_get hget]
    rw [hev] at h
    by_cases hid : id = slice.snapshotId
    · subst hid
      rw [hget] at h
      simp [GrOpen] at h
      simp [GrOpen]
      omega
    · simp [hid] at h
      simp [hid, h]

/-- A handler call does nothing for the snapshots of other servers. -/
theorem GrSnapshotStep.elsewhere {s : ServerId c} {st : GrServerState c} {e : GrEvent c}
    {r : GrOutcome c} (hs : GrSnapshotStep s st e r) {s' : ServerId c} (hne : s' ≠ s) (id : ℕ) :
    ((r.placed s).map grSlots).sum (.start s' id) = grSlots (.inl s, e) (.start s' id) ∧
      ((r.placed s).map grSlots).sum (.slice s' id) = grSlots (.inl s, e) (.slice s' id) := by
  cases hs with
  | same hrefs => rw [hrefs]; exact ⟨rfl, rfl⟩
  | take request he hrefs =>
    rw [hrefs, he]
    simp [grSlots, hne]
  | lock i snapshot gst time he _ hrefs =>
    rw [hrefs, he]
    simp [grSlots, hne]
  | start i snapshot he _ hrefs =>
    rw [hrefs, he]
    simp [grSlots, hne]
  | receive slice snapshot he _ _ hrefs =>
    rw [hrefs]
    rcases he with rfl | rfl <;> simp [grSlots, hne]
  | last slice snapshot he _ _ hrefs =>
    rw [hrefs]
    rcases he with rfl | rfl <;> simp [grSlots, hne]

/-- Clients have nothing to do with the slots of snapshots. -/
theorem grClientProcessEvent_slots {k : ClientId c} {t : ℚ} {decision : Decision}
    {st : GrClientState c} {e : GrEvent c} {r : GrClientState c × List (GrOut c)}
    (h : grClientProcessEvent k t decision st e = some r) :
    grSlots (.inr k, e) = 0 ∧ ∀ x ∈ placedOfClient k r.2, grSlots x = 0 := by
  obtain ⟨st', hlearn, -, hasks⟩ := grClientProcessEvent_asks h
  refine ⟨by cases hlearn <;> rfl, fun x hx => ?_⟩
  cases hasks x hx <;> rfl

section Runs

variable {setup : Setup c (GrEvent c)} {Q : GrAct c → Prop} {M : GrMail c} {h : List (GrAct c)}

def grStarts (events : Multiset ((ServerId c ⊕ ClientId c) × GrEvent c)) (s : ServerId c)
    (id : ℕ) : ℤ :=
  (events.map fun x => grSlots x (.start s id)).sum

def grSlices (events : Multiset ((ServerId c ⊕ ClientId c) × GrEvent c)) (s : ServerId c)
    (id : ℕ) : ℤ :=
  (events.map fun x => grSlots x (.slice s id)).sum

theorem sum_grSlots_nonneg (events : Multiset ((ServerId c ⊕ ClientId c) × GrEvent c))
    (slot : GrSlot c) : 0 ≤ (events.map fun x => grSlots x slot).sum := by
  refine Multiset.sum_nonneg fun y hy => ?_
  obtain ⟨x, -, rfl⟩ := Multiset.mem_map.mp hy
  exact grSlots_nonneg x slot

/-- **The account of every snapshot is in order in every state of a run.** -/
theorem gr_open (hr : Mail.Run (grProgram c) Q (grWorld setup).config.mail M h) (s : ServerId c)
    (id : ℕ) : GrOpen (grStarts M.events s id) (grSlices M.events s id)
      (ptrArrayGet (M.server s).snapshotStates id) := by
  induction hr with
  | nil =>
    have hev : ∀ slot,
        ((grWorld setup).config.mail.events.map fun x => grSlots x slot).sum = 0 := by
      intro slot
      refine Multiset.sum_eq_zero fun y hy => ?_
      obtain ⟨x, hx, rfl⟩ := Multiset.mem_map.mp hy
      rcases Setup.mem_mail hx with ⟨s, rfl, -⟩ | ⟨s, rfl⟩ | ⟨k, rfl⟩ <;> rfl
    exact ⟨hev _, hev _⟩
  | @cons M M' h a hrun hstep _ ih =>
    cases hstep with
    | @serve s' t e r mail hev ht hserve =>
      have hst : GrFormed s' { M.server s' with now := t, clock := c.clock s' t } :=
        ((gr_formed hrun).1 s').of_eq rfl rfl rfl rfl
      have hs := (grProcessEvent_work (grServerProcessEvent_some hserve)).snapshotStep hst
      have hsum : ∀ slot : GrSlot c, (((r.placed s' : List _) : Multiset _).map
          fun x => grSlots x slot).sum = ((r.placed s').map grSlots).sum slot := by
        intro slot
        rw [Multiset.map_coe, Multiset.sum_coe, Pi.list_sum_apply, List.map_map]
        rfl
      simp only [grStarts, grSlices, hev, Multiset.map_cons, Multiset.sum_cons] at ih
      simp only [grStarts, grSlices, Multiset.map_add, Multiset.sum_add, hsum]
      by_cases hse : s = s'
      · subst hse
        rw [Function.update_self]
        refine hs.open (sum_grSlots_nonneg _ _) (sum_grSlots_nonneg _ _) ?_
        rw [add_comm, add_comm (Multiset.sum _)]
        exact ih
      · rw [Function.update_of_ne hse, (hs.elsewhere hse id).1, (hs.elsewhere hse id).2, add_comm,
          add_comm (Multiset.sum _)]
        exact ih
    | @client k t x e r mail hev ht hclient =>
      obtain ⟨he, hnew⟩ := grClientProcessEvent_slots hclient
      have hsum : ∀ slot : GrSlot c, (((placedOfClient k r.2 : List _) : Multiset _).map
          fun x => grSlots x slot).sum = 0 := by
        intro slot
        refine Multiset.sum_eq_zero fun y hy => ?_
        obtain ⟨x, hx, rfl⟩ := Multiset.mem_map.mp hy
        rw [hnew x (Multiset.mem_coe.mp hx)]
        rfl
      simp only [grStarts, grSlices, hev, Multiset.map_cons, Multiset.sum_cons, he, Pi.zero_apply,
        zero_add] at ih
      simp only [grStarts, grSlices, Multiset.map_add, Multiset.sum_add, hsum, add_zero]
      exact ih
    | wait => exact ih

/-! ## 3. What a snapshot is taken for -/

/-- The snapshots of a server are taken for different transactions, which do not wait. -/
theorem gr_snapshot_rotx (hr : Mail.Run (grProgram c) Q (grWorld setup).config.mail M h)
    {s : ServerId c} {id : ℕ} {snapshot : GrSnapshotState c}
    (hget : ptrArrayGet (M.server s).snapshotStates id = some snapshot) :
    (∃ rotx, ptrArrayGet (M.server s).rotxStates snapshot.requestId = some rotx ∧
      rotx.waitingGst = false) ∧
    (∀ id' snapshot', ptrArrayGet (M.server s).snapshotStates id' = some snapshot' →
      snapshot'.requestId = snapshot.requestId → id' = id) ∧
    ∀ request, (.inl s, .getSnapshotRequest request) ∈ M.events →
      request.requestId ≠ snapshot.requestId := by
  have htotal := gr_balanced hr (.rotx s snapshot.requestId)
  rw [grTotal_slot (.inr (.inr rfl)), grHeld_rotx ((gr_formed hr).1 s)] at htotal
  have hev := sum_grRefs_nonneg M.events (.rotx s snapshot.requestId)
  have hnonneg : ∀ id (x : GrSnapshotState c), ptrArrayGet (M.server s).snapshotStates id = some x →
      0 ≤ if x.requestId = snapshot.requestId then (1 : ℤ) else 0 :=
    fun _ _ _ => by split <;> decide
  have hone := le_ptrArraySum hnonneg hget
  rw [if_pos rfl] at hone
  have howed : -1 ≤ ((ptrArrayGet (M.server s).rotxStates snapshot.requestId).elim 0
      fun rotx => if rotx.waitingGst then 0 else (-1 : ℤ)) := by
    cases ptrArrayGet (M.server s).rotxStates snapshot.requestId with
    | none => simp
    | some rotx => cases hw : rotx.waitingGst <;> simp [hw]
  refine ⟨?_, fun id' snapshot' hget' hid => ?_, fun request hmem hid => ?_⟩
  · cases hrotx : ptrArrayGet (M.server s).rotxStates snapshot.requestId with
    | none =>
      rw [hrotx, Option.elim_none] at htotal
      omega
    | some rotx =>
      rw [hrotx, Option.elim_some] at htotal
      refine ⟨rotx, rfl, ?_⟩
      cases hw : rotx.waitingGst with
      | false => rfl
      | true =>
        rw [hw, if_pos rfl] at htotal
        omega
  · by_contra hne
    have htwo := add_le_ptrArraySum hnonneg hget hget' hne
    rw [if_pos rfl, if_pos hid] at htwo
    omega
  · have hle := Multiset.single_le_sum
      (s := M.events.map fun x => grRefs x (.rotx s snapshot.requestId))
      (fun y hy => by
        obtain ⟨x, -, rfl⟩ := Multiset.mem_map.mp hy
        exact grRefs_nonneg x _) _ (Multiset.mem_map_of_mem _ hmem)
    have hrefs : grRefs (.inl s, .getSnapshotRequest request) (.rotx s snapshot.requestId) = 1 := by
      rw [← hid]
      exact GrRef.one_self _
    rw [hrefs] at hle
    omega

end Runs

end CCSim
