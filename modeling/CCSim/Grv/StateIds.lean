/-
# State ids (`grv`)

The slots of `put_states` and `rotx_states`, and the events that carry their ids (`grvSlot`).  A GET takes
no slot here, and no object carries the id of another one.  A slice request is only sent to a server
that holds one of the keys, so whatever carries the id of a transaction is part of its account
(`grvSlices_of_slot`), which says that a free slot has none (`grv_gathered`).
-/
import CCSim.StateView
import CCSim.Grv.Gather

namespace CCSim

variable {c : Cluster} {s : ServerId c} {st : GrvServerState c} {e : GrvEvent c} {r : GrvOutcome c}

/-! ## 1. The view -/

/-- The slot whose id an event carries.  The slices of a transaction carry its id through other
servers. -/
def grvSlot : (ServerId c ⊕ ClientId c) × GrvEvent c → Option (Slot c)
  | (.inl s, .putRequestLocked id) => some ⟨s, .put, id⟩
  | (.inl s, .putRequestUnlocked id) => some ⟨s, .put, id⟩
  | (_, .sliceRequest request) => some ⟨request.fromLpid, .rotx, request.rotxId⟩
  | (_, .sliceRequestLocked request) => some ⟨request.fromLpid, .rotx, request.rotxId⟩
  | (_, .sliceRequestUnlocked request) => some ⟨request.fromLpid, .rotx, request.rotxId⟩
  | (.inl s, .sliceResponse slice) => some ⟨s, .rotx, slice.rotxId⟩
  | _ => none

/-- What is written into an object when it is made, and stays there. -/
inductive GrvObject (c : Cluster)
  | put (key : Key) (value : Value) (destination : Lpid c) (client : ClientId c)
      (dependencyVector : TimeVector c) (past : List (GrvVersion c))
  | rotx (client : ClientId c) (keys : List Key)

def GrvPutState.object (putState : GrvPutState c) : GrvObject c :=
  .put putState.key putState.value putState.destination putState.client putState.dependencyVector
    putState.past

def GrvRotxState.object (rotx : GrvRotxState c) : GrvObject c := .rotx rotx.client rotx.keys

def grvObject (st : GrvServerState c) : StateKind → ℕ → Option (GrvObject c)
  | .put, id => (ptrArrayGet st.putStates id).map GrvPutState.object
  | .rotx, id => (ptrArrayGet st.rotxStates id).map GrvRotxState.object
  | _, _ => none

/-- A transaction of no keys. -/
def grvIdle (st : GrvServerState c) : StateKind → ℕ → Prop
  | .rotx, id => ∃ rotx ∈ ptrArrayGet st.rotxStates id, rotx.keys = []
  | _, _ => False

def grvStateView (c : Cluster) : StateView c (GrvEvent c) (GrvServerState c) (GrvObject c) where
  refers := grvSlot
  object := grvObject
  carried _ _ _ := False
  idle := grvIdle

/-! ## 2. What is in a slot is not replaced -/

theorem grvKeeps_of_eq {st' : GrvServerState c} (hput : st'.putStates = st.putStates)
    (hrotx : st'.rotxStates = st.rotxStates) : (grvStateView c).Keeps st st' := by
  refine fun kind id => .inl ?_
  cases kind
  · rfl
  · exact congrArg (fun a => (ptrArrayGet a id).map GrvPutState.object) hput
  · rfl
  · exact congrArg (fun a => (ptrArrayGet a id).map GrvRotxState.object) hrotx

/-- **No handler replaces what is in a slot.** -/
theorem GrvWork.keeps (hw : GrvWork s st e r) : (grvStateView c).Keeps st r.state := by
  cases hw with
  | other _ hput hrotx => exact grvKeeps_of_eq hput hrotx
  | putOpen =>
    intro kind id
    cases kind with
    | put => exact (ptrArrayPut_keeps id).imp_right .inl
    | _ => exact .inl rfl
  | putLocked hget =>
    refine fun kind id => .inl ?_
    cases kind with
    | put =>
      refine ptrArraySet_keeps hget ?_ id
      rfl
    | _ => rfl
  | putUnlocked hget =>
    intro kind id
    cases kind with
    | put => exact (ptrArraySet_none_keeps hget id).imp_right .inr
    | _ => exact .inl rfl
  | rotxOpen =>
    intro kind id
    cases kind with
    | rotx => exact (ptrArrayPut_keeps id).imp_right .inl
    | _ => exact .inl rfl
  | @receive slice rotx hget =>
    refine fun kind id => .inl ?_
    cases kind with
    | rotx =>
      refine ptrArraySet_keeps hget ?_ id
      simp only [GrvRotxState.object, grvReceiveSlice_client, grvReceiveSlice_keys]
    | _ => rfl
  | receiveLast hget =>
    intro kind id
    cases kind with
    | rotx => exact (ptrArraySet_none_keeps hget id).imp_right .inr
    | _ => exact .inl rfl
  | _ => exact grvKeeps_of_eq rfl rfl

/-! ## 3. References -/

/-- What carries the id of a transaction reads at least one of its keys. -/
def GrvReadsKeys (x : (ServerId c ⊕ ClientId c) × GrvEvent c) : Prop :=
  ∀ slot, grvSlot x = some slot → slot.kind = .rotx → grvSlices x (slot.server, slot.id) ≠ 0

theorem grvReadsKeys_none {x : (ServerId c ⊕ ClientId c) × GrvEvent c}
    (h : ∀ slot, grvSlot x = some slot → slot.kind ≠ .rotx) : GrvReadsKeys x :=
  fun slot hslot hkind => absurd hkind (h slot hslot)

theorem grvReadsKeys_other {x : (ServerId c ⊕ ClientId c) × GrvEvent c} (h : x.2.Other) :
    GrvReadsKeys x := by
  refine grvReadsKeys_none fun slot hslot => ?_
  obtain ⟨p, e⟩ := x
  cases e <;> first | exact h.elim | (cases p <;> cases hslot)

theorem grvReadsKeys_request {p : ServerId c ⊕ ClientId c} {e : GrvEvent c}
    {request : GrvSliceRequest c}
    (he : e = .sliceRequest request ∨ e = .sliceRequestLocked request ∨
      e = .sliceRequestUnlocked request) : GrvReadsKeys (p, e) ↔ request.keys ≠ [] := by
  have hslot : grvSlot (p, e) = some ⟨request.fromLpid, .rotx, request.rotxId⟩ := by
    rcases he with rfl | rfl | rfl <;> simp only [grvSlot]
  have hslices : grvSlices (p, e) (request.fromLpid, request.rotxId) = request.keys := by
    rcases he with rfl | rfl | rfl <;> simp only [grvSlices, Pi.single_eq_same]
  constructor
  · intro h hkeys
    refine h _ hslot rfl ?_
    rw [hslices, hkeys]
    rfl
  · intro hkeys slot hslot' _
    cases hslot.symm.trans hslot'
    rw [hslices]
    exact fun hzero => hkeys (Multiset.coe_eq_zero _ |>.mp hzero)

/-- A request for a slice is sent to a server that holds one of its keys. -/
theorem grvSliceRequests_readsKeys (request : GrvRotxRequest c) :
    ∀ o ∈ grvSliceRequests s st request, GrvReadsKeys (o.place s, o.event) := by
  intro o ho
  obtain ⟨p, -, hp⟩ := List.mem_filterMap.mp ho
  split at hp
  · cases hp
  · rename_i hkeys
    cases hp
    exact (grvReadsKeys_request (.inl rfl)).mpr hkeys

/-- **Every handler passes on slices of at least one key.** -/
theorem GrvWork.readsKeys (hw : GrvWork s st e r) (he : GrvReadsKeys (.inl s, e)) :
    ∀ x ∈ r.placed s, GrvReadsKeys x := by
  have hsend : ∀ {lpid : Lpid c} {e : GrvEvent c}, (∀ p, grvSlot (p, e) = none) →
      GrvReadsKeys ((grvSend lpid e).place s, (grvSend lpid e).event) := by
    intro lpid e hnone
    refine grvReadsKeys_none fun slot hslot => ?_
    cases lpid <;> cases (hnone _).symm.trans hslot
  have hsilent : ∀ {p : ServerId c ⊕ ClientId c} {e : GrvEvent c}, grvSlot (p, e) = none →
      GrvReadsKeys (p, e) := by
    intro p e hnone
    exact grvReadsKeys_none fun slot hslot => by cases hnone.symm.trans hslot
  cases hw with
  | other _ _ _ hnew => exact fun x hx => grvReadsKeys_other (hnew x hx)
  | getForward _ hcont =>
    refine Outcome.forall_placed (List.forall_mem_singleton.mpr (hsilent rfl)) fun e he => ?_
    exact grvReadsKeys_other (x := (.inl s, e)) (hcont e he)
  | getLock | getLocked | rotxLock | rotxLocked =>
    refine Outcome.forall_placed (List.forall_mem_nil _) ?_
    rintro _ ⟨⟩
    exact hsilent rfl
  | putOpen | putLocked =>
    refine Outcome.forall_placed (List.forall_mem_nil _) ?_
    rintro _ ⟨⟩
    exact grvReadsKeys_none (by rintro _ ⟨⟩ ⟨⟩)
  | getServe =>
    refine Outcome.forall_placed (List.forall_mem_singleton.mpr (hsend fun p => ?_))
      (by rintro _ ⟨⟩)
    cases p <;> rfl
  | putUnlocked =>
    refine Outcome.forall_placed (List.forall_mem_cons.mpr ⟨hsend fun p => ?_, fun o ho => ?_⟩)
      (by rintro _ ⟨⟩)
    · cases p <;> rfl
    · split at ho
      · cases ho
      · obtain ⟨s', -, rfl⟩ := List.mem_map.mp ho
        exact hsilent rfl
  | rotxOpen =>
    exact Outcome.forall_placed (grvSliceRequests_readsKeys _) (by rintro _ ⟨⟩)
  | sliceDefer =>
    exact Outcome.forall_placed (List.forall_mem_singleton.mpr he) (by rintro _ ⟨⟩)
  | sliceLock =>
    refine Outcome.forall_placed (List.forall_mem_nil _) ?_
    rintro _ ⟨⟩
    exact (grvReadsKeys_request (.inr (.inl rfl))).mpr ((grvReadsKeys_request (.inl rfl)).mp he)
  | sliceLocked =>
    refine Outcome.forall_placed (List.forall_mem_nil _) ?_
    rintro _ ⟨⟩
    exact (grvReadsKeys_request (.inr (.inr rfl))).mpr
      ((grvReadsKeys_request (.inr (.inl rfl))).mp he)
  | @sliceServe e request noTime hevent =>
    have hkeys : request.keys ≠ [] := by
      rcases hevent with rfl | rfl
      · exact (grvReadsKeys_request (.inl rfl)).mp he
      · exact (grvReadsKeys_request (.inr (.inr rfl))).mp he
    refine Outcome.forall_placed (List.forall_mem_singleton.mpr ?_) (by rintro _ ⟨⟩)
    rintro slot ⟨⟩ -
    simp [grvSlices, grvSliceAnswer, Out.place, Out.event, hkeys]
  | receive => exact Outcome.forall_placed (List.forall_mem_nil _) (by rintro _ ⟨⟩)
  | getResponse | putForward | putDefer | putResponse | receiveLast =>
    exact Outcome.forall_placed (List.forall_mem_singleton.mpr (hsilent rfl)) (by rintro _ ⟨⟩)

/-- What is read for a transaction carries its id. -/
theorem grvSlot_of_slices {x : (ServerId c ⊕ ClientId c) × GrvEvent c} {slot : ServerId c × ℕ}
    (h : grvSlices x slot ≠ 0) : grvSlot x = some ⟨slot.1, .rotx, slot.2⟩ := by
  have hsingle : ∀ {slot' : ServerId c × ℕ} {m : Multiset (ℕ × Key)},
      (Pi.single slot' m : ServerId c × ℕ → Multiset (ℕ × Key)) slot ≠ 0 → slot = slot' := by
    intro slot' m hne
    by_contra hslot
    exact hne (by simp [hslot])
  unfold grvSlices at h
  split at h
  all_goals first
    | exact absurd rfl h
    | (cases hsingle h; simp only [grvSlot])

/-- What refers to a PUT carries its id. -/
theorem grvSlot_put_iff {x : (ServerId c ⊕ ClientId c) × GrvEvent c} {s : ServerId c} {id : ℕ} :
    grvSlot x = some ⟨s, .put, id⟩ ↔ 0 < grvRefs x (.put s id) := by
  have hone : ∀ {ref : GrvRef c}, 0 < ref.one (.put s id) → .put s id = ref := by
    intro ref hpos
    by_contra href
    rw [GrvRef.one_of_ne href] at hpos
    exact lt_irrefl _ hpos
  constructor
  · intro h
    unfold grvSlot at h
    split at h <;> cases h
    all_goals
      simp only [grvRefs, GrvRef.one_self]
      decide
  · intro h
    unfold grvRefs at h
    split at h
    all_goals first
      | exact absurd h (lt_irrefl _)
      | (cases hone h; simp only [grvSlot])

/-! ## 4. Every run -/

section Runs

variable {setup : Setup c (GrvEvent c)} {Q : GrvAct c → Prop} {M : GrvMail c} {h : List (GrvAct c)}

theorem grv_readsKeys (hr : Mail.Run (grvProgram c) Q (grvWorld setup).config.mail M h) :
    ∀ x ∈ M.events, GrvReadsKeys x := by
  have hflow := hr.flow (fun _ _ => True) (fun _ _ => True) GrvReadsKeys ?_ ?_ (fun _ => trivial)
    (fun _ => trivial) ?_
  · exact hflow.2.2
  · intro s t st e r hserve _ he
    exact ⟨trivial, (grvProcessEvent_work (grvServerProcessEvent_some hserve)).readsKeys he⟩
  · intro k t decision st e r hasked _ _
    obtain ⟨st', -, -, hsends⟩ := grvClientProcessEvent_some hasked
    refine ⟨trivial, ?_⟩
    cases hsends with
    | nothing => exact List.forall_mem_nil _
    | tick delay => exact List.forall_mem_singleton.mpr (grvReadsKeys_none (by rintro slot ⟨⟩))
    | request _ _ _ hask =>
      refine List.forall_mem_singleton.mpr (grvReadsKeys_none fun slot hslot => ?_)
      cases hask <;> cases hslot
  · intro x hx
    rcases Setup.mem_mail hx with ⟨s, rfl, -⟩ | ⟨s, rfl⟩ | ⟨k, rfl⟩ <;>
      exact grvReadsKeys_none (by rintro slot ⟨⟩)

/-- **Nothing refers to a free slot.** -/
theorem grv_free_unreferred (hr : Mail.Run (grvProgram c) Q (grvWorld setup).config.mail M h)
    {slot : Slot c} (hfree : (grvStateView c).objectAt M slot = none) :
    (grvStateView c).Unreferred M slot := by
  refine ⟨fun x hx hrefers => ?_, fun hcarried => hcarried⟩
  obtain ⟨rest, hrest⟩ := Multiset.exists_cons_of_mem hx
  obtain ⟨s, kind, id⟩ := slot
  cases kind with
  | get | snapshot =>
    change grvSlot x = _ at hrefers
    unfold grvSlot at hrefers
    split at hrefers <;> cases hrefers
  | put =>
    have hnone : ptrArrayGet (M.server s).putStates id = none := Option.map_eq_none_iff.mp hfree
    have hsum := grv_put_refs hr s id
    rw [hnone, Option.elim_none] at hsum
    have hle := Multiset.single_le_sum (s := M.events.map fun x => grvRefs x (.put s id))
      (fun y hy => by
        obtain ⟨x, -, rfl⟩ := Multiset.mem_map.mp hy
        exact grvRefs_nonneg x _) _ (Multiset.mem_map_of_mem _ hx)
    have hpos := grvSlot_put_iff.mp hrefers
    omega
  | rotx =>
    have hnone : ptrArrayGet (M.server s).rotxStates id = none := Option.map_eq_none_iff.mp hfree
    cases (grv_gathered hr s id).phase with
    | free hplaces =>
      rw [hrest, Multiset.map_cons, Multiset.sum_cons] at hplaces
      exact grv_readsKeys hr x hx _ hrefers rfl (add_eq_zero.mp hplaces).1
    | taken _ hget =>
      rw [hnone] at hget
      cases hget

/-- **An object that is in use is referred to.** -/
theorem grv_live_referred (hr : Mail.Run (grvProgram c) Q (grvWorld setup).config.mail M h)
    {slot : Slot c} (hlive : ((grvStateView c).objectAt M slot).isSome) :
    ¬(grvStateView c).Unreferred M slot ∨ grvIdle (M.server slot.server) slot.kind slot.id := by
  obtain ⟨s, kind, id⟩ := slot
  cases kind with
  | get | snapshot => cases hlive
  | put =>
    obtain ⟨putState, hget⟩ := Option.isSome_iff_exists.mp (Option.isSome_map.symm.trans hlive)
    have hsum := grv_put_refs hr s id
    rw [hget, Option.elim_some] at hsum
    obtain ⟨x, hx, hne⟩ := exists_of_sum_map_ne_zero (hsum.trans_ne one_ne_zero)
    exact .inl fun hunreferred => hunreferred.events x hx
      (grvSlot_put_iff.mpr (lt_of_le_of_ne (grvRefs_nonneg x _) hne.symm))
  | rotx =>
    cases (grv_gathered hr s id).phase with
    | free _ hnone =>
      have hsome := Option.isSome_map.symm.trans hlive
      rw [hnone] at hsome
      cases hsome
    | @taken request hplaces hget hmore =>
      by_cases hkeys : request.keys = []
      · exact .inr ⟨_, hget, hkeys⟩
      · -- fewer values have been read than there are keys
        have hne : (M.events.map fun x => grvSlices x (s, id)).sum ≠ 0 := by
          intro hzero
          have hcard := congrArg Multiset.card hplaces
          rw [hzero, zero_add, card_grvReadPlaces, card_grvPlaces] at hcard
          exact absurd hcard (hmore.resolve_left hkeys).ne
        obtain ⟨x, hx, hslices⟩ := exists_of_sum_map_ne_zero hne
        exact .inl fun hunreferred => hunreferred.events x hx (grvSlot_of_slices hslices)

/-- **Ids are never stale.** -/
theorem grv_never_stale
    (hr : Mail.Run (grvProgram c) (fun _ => True) (grvWorld setup).config.mail M h) :
    (grvStateView c).NeverStale (grvProgram c) (grvWorld setup).config.mail M h := by
  refine hr.never_stale ?_ (fun hrun => ⟨fun slot => grv_free_unreferred hrun,
    fun slot => grv_live_referred hrun⟩) fun hrun hmem hserve => ?_
  · rintro ⟨s, kind, id⟩
    cases kind <;> rfl
  · exact (grvProcessEvent_work (grvServerProcessEvent_some hserve)).keeps

end Runs

end CCSim
