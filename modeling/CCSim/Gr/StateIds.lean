/-
# State ids (`gr`)

The slots of `get_states`, `put_states`, `snapshot_states` and `rotx_states`, and the events that carry
their ids (`grSlot`).  That ids refer to slots in use is read off the accounts of requests and
snapshots: the books say that a slot that is free is not referred to, and one that is in use is
(`gr_balanced`, `gr_gathered`).  The snapshot of a transaction without keys, which no workload asks
for, is never freed; nothing else is forgotten.
-/
import CCSim.StateView
import CCSim.Gr.Gather

namespace CCSim

variable {c : Cluster} {s : ServerId c} {st : GrServerState c} {e : GrEvent c} {r : GrOutcome c}

/-! ## 1. The view -/

/-- The slot whose id an event carries.  The slices of a snapshot carry its id through other
servers. -/
def grSlot : (ServerId c ⊕ ClientId c) × GrEvent c → Option (Slot c)
  | (.inl s, .getRequestLocked id) => some ⟨s, .get, id⟩
  | (.inl s, .getRequestUnlocked id) => some ⟨s, .get, id⟩
  | (.inl s, .putRequestLocked id) => some ⟨s, .put, id⟩
  | (.inl s, .putRequestUnlocked id) => some ⟨s, .put, id⟩
  | (.inl s, .getSnapshotRequest request) => some ⟨s, .rotx, request.requestId⟩
  | (.inl s, .getSnapshotRequestLocked id) => some ⟨s, .snapshot, id⟩
  | (.inl s, .getSnapshotRequestUnlocked id) => some ⟨s, .snapshot, id⟩
  | (.inl s, .getSnapshotResponse response) => some ⟨s, .rotx, response.requestId⟩
  | (_, .sliceRequest request) => some ⟨request.fromLpid, .snapshot, request.snapshotId⟩
  | (_, .sliceRequestLocked request) => some ⟨request.fromLpid, .snapshot, request.snapshotId⟩
  | (_, .sliceRequestUnlocked request) => some ⟨request.fromLpid, .snapshot, request.snapshotId⟩
  | (.inl s, .sliceResponse slice) => some ⟨s, .snapshot, slice.snapshotId⟩
  | (.inl s, .sliceResponseLocked slice) => some ⟨s, .snapshot, slice.snapshotId⟩
  | (.inl s, .sliceResponseUnlocked slice) => some ⟨s, .snapshot, slice.snapshotId⟩
  | _ => none

/-- What is written into an object when it is made, and stays there. -/
inductive GrObject (c : Cluster)
  | get (getState : GrGetState c)
  | put (key : Key) (value : Value) (destination : Lpid c) (client : ClientId c)
      (past : List (GrVersion c))
  | snapshot (client : Lpid c) (requestId : ℕ) (keys : List Key)
  | rotx (client : ClientId c) (dependencyTime : ℚ) (snapshotRequest : GrGetSnapshotRequest c)

def GrPutState.object (putState : GrPutState c) : GrObject c :=
  .put putState.key putState.value putState.destination putState.client putState.past

def GrSnapshotState.object (snapshot : GrSnapshotState c) : GrObject c :=
  .snapshot snapshot.client snapshot.requestId snapshot.keys

def GrRotxState.object (rotx : GrRotxState c) : GrObject c :=
  .rotx rotx.client rotx.dependencyTime rotx.snapshotRequest

def grObject (st : GrServerState c) : StateKind → ℕ → Option (GrObject c)
  | .get, id => (ptrArrayGet st.getStates id).map .get
  | .put, id => (ptrArrayGet st.putStates id).map GrPutState.object
  | .snapshot, id => (ptrArrayGet st.snapshotStates id).map GrSnapshotState.object
  | .rotx, id => (ptrArrayGet st.rotxStates id).map GrRotxState.object

/-- A snapshot carries the id of its transaction. -/
def grCarried (st : GrServerState c) : StateKind → ℕ → Prop
  | .rotx, id => ∃ id' snapshot, ptrArrayGet st.snapshotStates id' = some snapshot ∧
      snapshot.requestId = id
  | _, _ => False

/-- A transaction that waits for the stable time, and a snapshot of no keys. -/
def grIdle (st : GrServerState c) : StateKind → ℕ → Prop
  | .rotx, id => ∃ rotx ∈ ptrArrayGet st.rotxStates id, rotx.waitingGst = true
  | .snapshot, id => ∃ snapshot ∈ ptrArrayGet st.snapshotStates id, snapshot.keys = []
  | _, _ => False

def grStateView (c : Cluster) : StateView c (GrEvent c) (GrServerState c) (GrObject c) where
  refers := grSlot
  object := grObject
  carried := grCarried
  idle := grIdle

/-! ## 2. What is in a slot is not replaced -/

theorem grUpdateGst_object (gst : ℚ) (kind : StateKind) (id : ℕ) :
    grObject (grUpdateGst st gst).1 kind id = grObject st kind id := by
  have hrotx : ∀ rotx : GrRotxState c,
      (grRotxGstUpdateCallback gst rotx).1.object = rotx.object := by
    intro rotx
    unfold grRotxGstUpdateCallback
    split <;> rfl
  unfold grUpdateGst
  split
  · cases kind with
    | rotx =>
      simp only [grObject, grRotxOnGstUpdated, ptrArrayGet_map, Option.map_map, Function.comp_def,
        hrotx]
    | _ => rfl
  · rfl

theorem StateView.Keeps.of_eq {st' : GrServerState c}
    (h : ∀ kind id, grObject st' kind id = grObject st kind id) :
    (grStateView c).Keeps st st' :=
  fun kind id => .inl (h kind id)

/-- **No handler replaces what is in a slot.** -/
theorem GrWork.keeps (hw : GrWork s st e r) (hst : GrFormed s st) :
    (grStateView c).Keeps st r.state := by
  have hput : ∀ {α : Type} {f : α → GrObject c} {a : PtrArray α} {x : α} (id : ℕ),
      (ptrArrayGet (ptrArrayPut x a) id).map f = (ptrArrayGet a id).map f ∨
        (ptrArrayGet a id).map f = none ∨ (ptrArrayGet (ptrArrayPut x a) id).map f = none :=
    fun id => (ptrArrayPut_keeps id).imp_right .inl
  have hfree : ∀ {α : Type} {f : α → GrObject c} {a : PtrArray α} {id : ℕ} {x : α},
      ptrArrayGet a id = some x → ∀ id',
        (ptrArrayGet (ptrArraySet a id none) id').map f = (ptrArrayGet a id').map f ∨
          (ptrArrayGet a id').map f = none ∨
            (ptrArrayGet (ptrArraySet a id none) id').map f = none :=
    fun hget id' => (ptrArraySet_none_keeps hget id').imp_right .inr
  cases hw with
  | other _ hget hput hsnapshot hrotx =>
    refine .of_eq fun kind id => ?_
    cases kind <;> simp only [grObject, hget, hput, hsnapshot, hrotx]
  | wake _ gst _ hstate =>
    rw [hstate]
    exact .of_eq (grUpdateGst_object gst)
  | getOpen =>
    intro kind id
    cases kind with
    | get => exact hput id
    | _ => exact .inl rfl
  | @getServe request =>
    -- the slot is taken and freed
    refine .of_eq fun kind id => ?_
    cases kind with
    | get =>
      have hslot : ptrArrayGet (ptrArrayPut request.state st.getStates)
          (ptrArrayFree st.getStates) = some request.state := by
        rw [ptrArrayPut_get, if_pos rfl]
      simp only [grObject, ptrArraySet_get hslot]
      split
      · rename_i hid
        rw [hid, ptrArrayFree_get]
      · rename_i hid
        rw [ptrArrayPut_get, if_neg hid]
    | _ => rfl
  | getLocked | sliceLocked | receiveLocked => exact .of_eq (grUpdateGst_object _)
  | getUnlocked hget =>
    intro kind id
    cases kind with
    | get => exact hfree hget id
    | _ => exact .inl rfl
  | putOpen =>
    intro kind id
    cases kind with
    | put => exact hput id
    | _ => exact .inl rfl
  | putLocked hget =>
    refine .of_eq fun kind id => ?_
    cases kind with
    | put =>
      refine ptrArraySet_keeps hget ?_ id
      rfl
    | _ => rfl
  | putUnlocked hget =>
    intro kind id
    cases kind with
    | put => exact hfree hget id
    | _ => exact .inl rfl
  | rotxRequest =>
    intro kind id
    cases kind with
    | rotx => exact hput id
    | _ => exact .inl rfl
  | snapshotRequest =>
    intro kind id
    cases kind with
    | snapshot => exact hput id
    | _ => exact .inl rfl
  | @snapshotLocked id snapshot hget =>
    refine .of_eq fun kind id' => ?_
    cases kind with
    | snapshot =>
      have hget' : ptrArrayGet (grUpdateGst st snapshot.gst).1.snapshotStates id = some snapshot := by
        rw [grUpdateGst_snapshotStates]
        exact hget
      have hset := ptrArraySet_keeps (f := GrSnapshotState.object)
        (y := { snapshot with gst := 0, time := (grUpdateGst st snapshot.gst).1.gst }) hget' rfl id'
      exact hset.trans (grUpdateGst_object snapshot.gst .snapshot id')
    | get => exact grUpdateGst_object snapshot.gst .get id'
    | put => exact grUpdateGst_object snapshot.gst .put id'
    | rotx => exact grUpdateGst_object snapshot.gst .rotx id'
  | receive _ hget =>
    refine .of_eq fun kind id => ?_
    cases kind with
    | snapshot =>
      refine ptrArraySet_keeps hget ?_ id
      rfl
    | _ => rfl
  | receiveLast _ hget _ hrotx =>
    intro kind id
    cases kind with
    | snapshot => exact hfree hget id
    | rotx => exact hfree hrotx id
    | _ => exact .inl rfl
  | abroad _ hget hclient => exact absurd (hst.snapshot _ _ hget) hclient
  | getForward | getResponse | putForward | putDefer | putResponse | snapshotUnlocked | sliceRequest
  | sliceServe | sliceResponse => exact .of_eq fun _ _ => rfl

/-! ## 3. References -/

/-- The slot that a reference is to. -/
def GrRef.slot : GrRef c → Option (Slot c)
  | .client _ => none
  | .get s id => some ⟨s, .get, id⟩
  | .put s id => some ⟨s, .put, id⟩
  | .rotx s id => some ⟨s, .rotx, id⟩

/-- What refers to a slot carries its id. -/
theorem grSlot_of_refs {x : (ServerId c ⊕ ClientId c) × GrEvent c} {ref : GrRef c} {slot : Slot c}
    (hslot : ref.slot = some slot) (h : grRefs x ref ≠ 0) : grSlot x = some slot := by
  have hone : ∀ {ref' : GrRef c}, ref'.one ref ≠ 0 → ref = ref' := by
    intro ref' hne
    by_contra href
    exact hne (GrRef.one_of_ne href)
  unfold grRefs at h
  split at h
  all_goals first
    | exact absurd rfl h
    | (obtain rfl := hone h; exact hslot)
    | (obtain rfl := hone h; cases hslot)

/-- What carries the id of a slot refers to it. -/
theorem grRefs_of_slot {x : (ServerId c ⊕ ClientId c) × GrEvent c} {ref : GrRef c} {slot : Slot c}
    (hslot : ref.slot = some slot) (h : grSlot x = some slot)
    (hx : ∀ response, x.2 ≠ .getSnapshotResponse response) : grRefs x ref = 1 := by
  have hone : ∀ {ref' : GrRef c}, ref'.slot = some slot → ref'.one ref = 1 := by
    intro ref' hslot'
    have href : ref = ref' := by
      cases ref <;> cases ref' <;> cases hslot <;> cases hslot' <;> rfl
    rw [href, GrRef.one_self]
  have hkind : slot.kind ≠ .snapshot := by
    cases ref <;> cases hslot <;> simp
  unfold grSlot at h
  split at h
  case h_8 => exact absurd rfl (hx _)
  case h_15 => cases h
  all_goals first
    | exact hone h
    | (cases h; exact absurd rfl hkind)

/-- What is under way for a snapshot carries its id. -/
theorem grSlot_of_pieces {x : (ServerId c ⊕ ClientId c) × GrEvent c} {s : ServerId c} {id : ℕ}
    (h : grPieces x (.snapshot s id) ≠ 0) : grSlot x = some ⟨s, .snapshot, id⟩ := by
  have hone : ∀ {tx : GrTx c} {pieces : Multiset (GrPiece c)},
      tx.one pieces (.snapshot s id) ≠ 0 → GrTx.snapshot s id = tx := by
    intro tx pieces hne
    by_contra htx
    exact hne (GrTx.one_of_ne htx _)
  unfold grPieces at h
  split at h
  all_goals first
    | exact absurd rfl h
    | (cases hone h; simp only [grSlot])

theorem grPieces_of_slot {x : (ServerId c ⊕ ClientId c) × GrEvent c} {s : ServerId c} {id : ℕ}
    (h : grSlot x = some ⟨s, .snapshot, id⟩) : grPieces x (.snapshot s id) ≠ 0 := by
  unfold grSlot at h
  split at h <;> cases h
  all_goals
    simp only [grPieces, GrTx.one_self]
    exact Multiset.singleton_ne_zero _

/-! ## 4. Every run -/

/-- No server asks another one for a snapshot, so none is sent one. -/
theorem GrWork.noSnapshotResponse (hw : GrWork s st e r) (hst : GrFormed s st) :
    ∀ x ∈ r.placed s, ∀ response, x.2 ≠ .getSnapshotResponse response := by
  have hother : ∀ {e : GrEvent c} {response}, e.Other → e ≠ .getSnapshotResponse response := by
    rintro e response he rfl
    exact he
  have hupdate : ∀ (gst : ℚ), ∀ o ∈ (grUpdateGst st gst).2, ∀ response,
      o.event ≠ .getSnapshotResponse response := by
    intro gst o ho response
    obtain ⟨id, rotx, -, rfl⟩ := grUpdateGst_out ho
    rintro ⟨⟩
  have hsend : ∀ {lpid : Lpid c} {e : GrEvent c}, (grSend lpid e).event = e := by
    intro lpid e
    cases lpid <;> rfl
  cases hw with
  | other _ _ _ _ _ hnew => exact fun x hx response => hother (hnew x hx)
  | wake _ gst others _ hplaced hothers =>
    rw [hplaced]
    intro x hx response
    rcases List.mem_append.mp hx with hx | hx
    · obtain ⟨o, ho, rfl⟩ := List.mem_map.mp hx
      exact hupdate gst o ho response
    · exact hother (hothers x hx)
  | getForward _ hcont =>
    refine Outcome.forall_placed (List.forall_mem_singleton.mpr ?_) fun e he response => ?_
    · rintro response ⟨⟩
    · exact hother (hcont e he)
  | getLocked | snapshotLocked | sliceLocked | receiveLocked =>
    refine Outcome.forall_placed (hupdate _) ?_
    rintro _ ⟨⟩ response ⟨⟩
  | getServe | getUnlocked =>
    refine Outcome.forall_placed (List.forall_mem_singleton.mpr ?_) (by rintro _ ⟨⟩)
    rw [hsend]
    rintro response ⟨⟩
  | putUnlocked =>
    refine Outcome.forall_placed (List.forall_mem_cons.mpr ⟨?_, fun o ho => ?_⟩) (by rintro _ ⟨⟩)
    · rw [hsend]
      rintro response ⟨⟩
    · split at ho
      · cases ho
      · obtain ⟨s', -, rfl⟩ := List.mem_map.mp ho
        rintro response ⟨⟩
  | rotxRequest =>
    refine Outcome.forall_placed (fun o ho => ?_) (by rintro _ ⟨⟩)
    dsimp only at ho
    split at ho
    · cases ho
    · obtain rfl := List.mem_singleton.mp ho
      rintro response ⟨⟩
  | snapshotUnlocked =>
    refine Outcome.forall_placed (fun o ho => ?_) (by rintro _ ⟨⟩)
    obtain ⟨i, hi, rfl⟩ := List.mem_mapIdx.mp ho
    rintro response ⟨⟩
  | abroad _ hget hclient => exact absurd (hst.snapshot _ _ hget) hclient
  | getOpen | putOpen | putLocked | snapshotRequest | sliceRequest | sliceResponse =>
    refine Outcome.forall_placed (List.forall_mem_nil _) ?_
    rintro _ ⟨⟩ response ⟨⟩
  | receive => exact Outcome.forall_placed (List.forall_mem_nil _) (by rintro _ ⟨⟩)
  | getResponse | putForward | putDefer | putResponse | sliceServe | receiveLast =>
    refine Outcome.forall_placed (List.forall_mem_singleton.mpr ?_) (by rintro _ ⟨⟩)
    rintro response ⟨⟩

section Runs

variable {setup : Setup c (GrEvent c)} {Q : GrAct c → Prop} {M : GrMail c} {h : List (GrAct c)}

theorem gr_noSnapshotResponse (hr : Mail.Run (grProgram c) Q (grWorld setup).config.mail M h) :
    ∀ x ∈ M.events, ∀ response, x.2 ≠ .getSnapshotResponse response := by
  have hflow := hr.flow_all (fun _ _ _ => True) (fun _ _ _ => True)
    (fun _ x => ∀ response, x.2 ≠ .getSnapshotResponse response) id id id ?_ ?_
    (fun _ => trivial) (fun _ => trivial) ?_
  · exact hflow.2.2
  · intro M h s t e r hrun hmem hserve _ _
    have hformed : GrFormed s { M.server s with now := t, clock := c.clock s t } :=
      ((gr_formed hrun).1 s).of_eq rfl rfl rfl rfl
    exact ⟨trivial,
      (grProcessEvent_work (grServerProcessEvent_some hserve)).noSnapshotResponse hformed⟩
  · intro M h k t decision e r hrun hasked _ _
    obtain ⟨st', -, -, hasks⟩ := grClientProcessEvent_asks hasked
    refine ⟨trivial, fun x hx response => ?_⟩
    cases hasks x hx <;> rintro ⟨⟩
  · intro x hx
    rcases Setup.mem_mail hx with ⟨s, rfl, -⟩ | ⟨s, rfl⟩ | ⟨k, rfl⟩ <;> rintro response ⟨⟩

/-- The books of a slot. -/
theorem gr_slot_balanced (hr : Mail.Run (grProgram c) Q (grWorld setup).config.mail M h)
    (ref : GrRef c) {slot : Slot c} (hslot : ref.slot = some slot) :
    (M.events.map fun x => grRefs x ref).sum +
      grHeld slot.server (M.server slot.server) ref = 0 := by
  have href : ref = .get slot.server slot.id ∨ ref = .put slot.server slot.id ∨
      ref = .rotx slot.server slot.id := by
    cases ref <;> cases hslot
    · exact .inl rfl
    · exact .inr (.inl rfl)
    · exact .inr (.inr rfl)
  rw [← grTotal_slot href]
  exact gr_balanced hr ref

/-- If nothing has to refer to a slot, nothing in flight does. -/
theorem gr_unreferred (hr : Mail.Run (grProgram c) Q (grWorld setup).config.mail M h)
    (ref : GrRef c) {slot : Slot c} (hslot : ref.slot = some slot)
    (hheld : 0 ≤ grHeld slot.server (M.server slot.server) ref) :
    ∀ x ∈ M.events, grSlot x ≠ some slot := by
  intro x hx hrefers
  have htotal := gr_slot_balanced hr ref hslot
  have hle := Multiset.single_le_sum (s := M.events.map fun x => grRefs x ref)
    (fun y hy => by
      obtain ⟨x, -, rfl⟩ := Multiset.mem_map.mp hy
      exact grRefs_nonneg x _) _ (Multiset.mem_map_of_mem _ hx)
  rw [grRefs_of_slot hslot hrefers (gr_noSnapshotResponse hr x hx)] at hle
  omega

/-- If something has to refer to a slot, something in flight does. -/
theorem gr_referred (hr : Mail.Run (grProgram c) Q (grWorld setup).config.mail M h)
    (ref : GrRef c) {slot : Slot c} (hslot : ref.slot = some slot)
    (hheld : grHeld slot.server (M.server slot.server) ref < 0) :
    ¬(grStateView c).Unreferred M slot := by
  intro hunreferred
  have htotal := gr_slot_balanced hr ref hslot
  obtain ⟨x, hx, hne⟩ := exists_of_sum_map_ne_zero (f := fun x => grRefs x ref) (m := M.events)
    (by omega)
  exact hunreferred.events x hx (grSlot_of_refs hslot hne)

/-- The snapshots that carry the id of a transaction. -/
theorem grCarried_rotx_iff {id : ℕ} :
    grCarried st .rotx id ↔ 0 < ptrArraySum (fun _ (snapshot : GrSnapshotState c) =>
      if snapshot.requestId = id then (1 : ℤ) else 0) st.snapshotStates := by
  constructor
  · rintro ⟨id', snapshot, hget, hid⟩
    have hle := le_ptrArraySum (f := fun _ (snapshot : GrSnapshotState c) =>
      if snapshot.requestId = id then (1 : ℤ) else 0) (fun _ _ _ => by split <;> decide) hget
    rw [if_pos hid] at hle
    omega
  · intro hpos
    obtain ⟨id', snapshot, hget, hne⟩ := exists_of_ptrArraySum_ne_zero hpos.ne'
    refine ⟨id', snapshot, hget, ?_⟩
    by_contra hid
    exact hne (if_neg hid)

/-- **Nothing refers to a free slot.** -/
theorem gr_free_unreferred (hr : Mail.Run (grProgram c) Q (grWorld setup).config.mail M h)
    {slot : Slot c} (hfree : (grStateView c).objectAt M slot = none) :
    (grStateView c).Unreferred M slot := by
  obtain ⟨s, kind, id⟩ := slot
  cases kind with
  | get =>
    have hnone : ptrArrayGet (M.server s).getStates id = none := Option.map_eq_none_iff.mp hfree
    refine ⟨gr_unreferred hr (.get s id) rfl ?_, fun hcarried => hcarried⟩
    rw [grHeld_get, hnone]
    rfl
  | put =>
    have hnone : ptrArrayGet (M.server s).putStates id = none := Option.map_eq_none_iff.mp hfree
    refine ⟨gr_unreferred hr (.put s id) rfl ?_, fun hcarried => hcarried⟩
    rw [grHeld_put, hnone]
    rfl
  | snapshot =>
    have hnone : ptrArrayGet (M.server s).snapshotStates id = none :=
      Option.map_eq_none_iff.mp hfree
    refine ⟨fun x hx hrefers => ?_, fun hcarried => hcarried⟩
    cases (gr_gathered hr s id).phase with
    | free hpieces =>
      obtain ⟨rest, hrest⟩ := Multiset.exists_cons_of_mem hx
      rw [hrest, Multiset.map_cons, Multiset.sum_cons] at hpieces
      exact grPieces_of_slot hrefers (add_eq_zero.mp hpieces).1
    | taken _ _ hget | timed _ _ _ hget | read _ _ _ hget =>
      rw [hnone] at hget
      cases hget
  | rotx =>
    have hnone : ptrArrayGet (M.server s).rotxStates id = none := Option.map_eq_none_iff.mp hfree
    have htotal := gr_slot_balanced hr (.rotx s id) rfl
    have hheld := grHeld_rotx ((gr_formed hr).1 s) id
    rw [hnone, Option.elim_none, zero_add] at hheld
    refine ⟨gr_unreferred hr (.rotx s id) rfl ?_, fun hcarried => ?_⟩
    · rw [hheld]
      exact ptrArraySum_nonneg fun _ _ _ => by split <;> decide
    · have hpos := grCarried_rotx_iff.mp (show grCarried (M.server s) .rotx id from hcarried)
      have hrefs := sum_grRefs_nonneg M.events (.rotx s id)
      dsimp only at htotal
      omega

/-- **An object that is in use is referred to**, or waits for the stable time. -/
theorem gr_live_referred (hr : Mail.Run (grProgram c) Q (grWorld setup).config.mail M h)
    {slot : Slot c} (hlive : ((grStateView c).objectAt M slot).isSome) :
    ¬(grStateView c).Unreferred M slot ∨ grIdle (M.server slot.server) slot.kind slot.id := by
  obtain ⟨s, kind, id⟩ := slot
  cases kind with
  | get =>
    obtain ⟨getState, hget⟩ := Option.isSome_iff_exists.mp (Option.isSome_map.symm.trans hlive)
    refine .inl (gr_referred hr (.get s id) rfl ?_)
    rw [grHeld_get, hget]
    exact neg_one_lt_zero
  | put =>
    obtain ⟨putState, hget⟩ := Option.isSome_iff_exists.mp (Option.isSome_map.symm.trans hlive)
    refine .inl (gr_referred hr (.put s id) rfl ?_)
    rw [grHeld_put, hget]
    exact neg_one_lt_zero
  | snapshot =>
    obtain ⟨snapshot, hget⟩ := Option.isSome_iff_exists.mp (Option.isSome_map.symm.trans hlive)
    by_cases hkeys : snapshot.keys = []
    · exact .inr ⟨snapshot, hget, hkeys⟩
    · refine .inl fun hunreferred => ?_
      obtain ⟨x, hx, hpieces⟩ :=
        exists_of_sum_map_ne_zero ((gr_gathered hr s id).phase.pieces_ne_zero hget hkeys)
      exact hunreferred.events x hx (grSlot_of_pieces hpieces)
  | rotx =>
    obtain ⟨rotx, hget⟩ := Option.isSome_iff_exists.mp (Option.isSome_map.symm.trans hlive)
    cases hwait : rotx.waitingGst with
    | true => exact .inr ⟨rotx, hget, hwait⟩
    | false =>
      by_cases hcarried : grCarried (M.server s) .rotx id
      · exact .inl fun hunreferred => hunreferred.objects hcarried
      · refine .inl (gr_referred hr (.rotx s id) rfl ?_)
        have hnone := mt grCarried_rotx_iff.mpr hcarried
        rw [grHeld_rotx ((gr_formed hr).1 s), hget, Option.elim_some, hwait,
          if_neg (by rintro ⟨⟩)]
        omega

/-- **Ids are never stale.** -/
theorem gr_never_stale (hr : Mail.Run (grProgram c) (fun _ => True) (grWorld setup).config.mail M h) :
    (grStateView c).NeverStale (grProgram c) (grWorld setup).config.mail M h := by
  refine hr.never_stale ?_ (fun hrun => ⟨fun slot => gr_free_unreferred hrun,
    fun slot => gr_live_referred hrun⟩) fun hrun hmem hserve => ?_
  · rintro ⟨s, kind, id⟩
    cases kind <;> rfl
  · exact (grProcessEvent_work (grServerProcessEvent_some hserve)).keeps
      (((gr_formed hrun).1 _).of_eq rfl rfl rfl rfl)

end Runs

end CCSim
