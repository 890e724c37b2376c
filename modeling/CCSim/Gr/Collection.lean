/-
# Garbage collection of versions (`gr`)

`gr_garbage_collect` keeps the first version of every chain and the versions below it down to the
first that is older than the server's stable time, and frees the others.  Its calls are commented
out; here it runs at any server between any two events, and the versions that it frees are recorded
beside the run (`GrCollectedRun`).

With the freed versions put back at the end of their chains, such a run is a run without collection
as long as no handler reads something else (`World.step_mapServers`).  A GET never does: where
versions were freed, one is kept that every GET sees.  A slice of a snapshot can: its snapshot time
was fixed elsewhere and may be below the stable time here, and then the version it asks for may be
gone (`gr_slice_misses`).  Unless this happens, the collection makes no difference
(`gr_collection_invisible`).
-/
import CCSim.Gr.Answers
import CCSim.Replay

namespace CCSim

/-! ## 1. Worlds that differ in the states of their servers -/

section MapServers

variable {S K E σ κ χ : Type} [DecidableEq S] [DecidableEq K] {P : Program S K E σ κ χ}
  {conf : SimConfig S K E} {W W' : World S K E σ κ} {choice : Choice χ}
  {a : Option (Act S K E σ κ)} {f : S → σ → σ}

/-- The same world with other states of the servers. -/
def World.mapServers (f : S → σ → σ) (W : World S K E σ κ) : World S K E σ κ :=
  { W with servers := fun s => { W.servers s with state := f s (W.servers s).state } }

/-- The same handler call on another state. -/
def Act.mapServers (f : S → σ → σ) : Act S K E σ κ → Act S K E σ κ
  | .server s t e st r => .server s t e (f s st) { r with state := f s r.state }
  | .client k t e st r => .client k t e st r

omit [DecidableEq K] in
theorem World.mapServers_setServer (W : World S K E σ κ) (s : S) (lp : ServerLp S K E σ)
    (events : List (ℚ × Target S K E)) : (W.setServer s lp events).mapServers f =
      (W.mapServers f).setServer s { lp with state := f s lp.state } events := by
  simp only [World.mapServers, World.setServer, World.mk.injEq, true_and, and_true]
  funext s'
  by_cases hs : s' = s
  · subst hs
    simp only [Function.update_self]
  · simp only [Function.update_of_ne hs]

/-- The handler that is called does on the other state what it does on this one. -/
def World.Respects (P : Program S K E σ κ χ) (f : S → σ → σ) (W : World S K E σ κ)
    (a : Option (Act S K E σ κ)) : Prop :=
  ∀ s t e r, a = some (.server s t e (W.servers s).state r) →
    P.serve s t (W.servers s).state e = some r →
      P.serve s t (f s (W.servers s).state) e = some { r with state := f s r.state }

theorem World.stepServer_mapServers {s : S} {ev : CpuEvent E}
    (h : W.stepServer P conf choice s ev = some (W', a)) (hf : W.Respects P f a) :
    (W.mapServers f).stepServer P conf choice s ev =
      some (W'.mapServers f, a.map (Act.mapServers f)) := by
  simp only [World.stepServer, Option.bind_eq_bind, Option.bind_eq_some_iff] at h
  obtain ⟨⟨cpu, d⟩, hcpu, h⟩ := h
  have hcpu' : cpuProcessEvent ((W.mapServers f).servers s).cpu ev = some (cpu, d) := hcpu
  simp only [World.stepServer, Option.bind_eq_bind, hcpu', Option.bind_some]
  cases d with
  | idle =>
    cases h
    rw [World.mapServers_setServer]
    rfl
  | wait =>
    cases h
    rw [World.mapServers_setServer]
    rfl
  | run e =>
    simp only [Option.bind_eq_some_iff] at h
    obtain ⟨r, hserve, ⟨net, elapsed, evs⟩, hemit, ⟨⟩, hlast, last, hfinish, hW⟩ := h
    cases hW
    have hserve' : P.serve s (W.mapServers f).now ((W.mapServers f).servers s).state e =
        some { r with state := f s r.state } := hf s W.now e r rfl hserve
    have hemit' : emitServerAll conf s (W.mapServers f).now ((W.mapServers f).servers s).network 0
        r.outs choice.draws = some (net, elapsed, evs) := hemit
    have hfinish' : finish s (W.mapServers f).now cpu (elapsed + choice.last) choice.after r.noTime
        r.cont = some last := hfinish
    simp only [hserve', hemit', hlast, hfinish', Option.bind_some]
    rw [World.mapServers_setServer]
    rfl

/-- **A step of a world is a step of the other world**, if its handler respects the difference. -/
theorem World.step_mapServers (h : W.step P conf choice = some (W', a)) (hf : W.Respects P f a) :
    (W.mapServers f).step P conf choice = some (W'.mapServers f, a.map (Act.mapServers f)) := by
  simp only [World.step, Option.bind_eq_bind, Option.bind_eq_some_iff] at h
  obtain ⟨⟨t, target⟩, hev, ⟨⟩, hnow, h⟩ := h
  have hev' : (W.mapServers f).events[choice.pick]? = some (t, target) := hev
  have hnow' : guard ((W.mapServers f).now ≤ t ∧ ∀ ev ∈ (W.mapServers f).events, t ≤ ev.1) =
      some () := hnow
  simp only [World.step, Option.bind_eq_bind, hev', hnow', Option.bind_some]
  cases target with
  | server s ev => exact World.stepServer_mapServers h hf
  | client k e =>
    simp only [World.stepClient, Option.bind_eq_bind, Option.bind_eq_some_iff] at h ⊢
    obtain ⟨r, hclient, ⟨net, evs⟩, hemit, hW⟩ := h
    cases hW
    exact ⟨r, hclient, (net, evs), hemit, rfl⟩

/-- A step changes the state of a server by the handler that is called, if at all. -/
theorem World.step_state (h : W.step P conf choice = some (W', a)) (s : S) :
    (W'.servers s).state = (W.servers s).state ∨
      ∃ t e r, a = some (.server s t e (W.servers s).state r) ∧
        P.serve s t (W.servers s).state e = some r ∧ (W'.servers s).state = r.state := by
  simp only [World.step, Option.bind_eq_bind, Option.bind_eq_some_iff] at h
  obtain ⟨⟨t, target⟩, hev, ⟨⟩, hnow, h⟩ := h
  cases target with
  | server s' ev =>
    obtain ⟨cpu, d, -, hserved⟩ := World.stepServer_served h
    cases hserved with
    | stay =>
      refine .inl ?_
      by_cases hs : s = s'
      · subst hs
        simp only [World.setServer, Function.update_self]
      · simp only [World.setServer, Function.update_of_ne hs]
    | run hserve =>
      by_cases hs : s = s'
      · subst hs
        refine .inr ⟨_, _, _, rfl, hserve, ?_⟩
        simp only [World.setServer, Function.update_self]
      · refine .inl ?_
        simp only [World.setServer, Function.update_of_ne hs]
  | client k e =>
    simp only [World.stepClient, Option.bind_eq_bind, Option.bind_eq_some_iff] at h
    obtain ⟨r, hclient, ⟨net, evs⟩, hemit, hW⟩ := h
    cases hW
    exact .inl rfl

end MapServers

/-! ## 2. The collection -/

variable {c : Cluster} {self : ServerId c} {st : GrServerState c} {f : Store (Replica c) Unit}

/-- The versions that the loop of `garbage_collect_item` keeps. -/
def keptVersions (gst : ℚ) : List (GrItem c) → List (GrItem c)
  | [] => []
  | item :: older => if item.updateTime < gst then [item] else item :: keptVersions gst older

/-- The versions that it frees. -/
def freedVersions (gst : ℚ) : List (GrItem c) → List (GrItem c)
  | [] => []
  | item :: older => if item.updateTime < gst then older else freedVersions gst older

/-- `garbage_collect_item`: the latest version stays, and the one before it. -/
def garbageCollectItem (gst : ℚ) : List (GrItem c) → List (GrItem c)
  | [] => []
  | item :: older => item :: keptVersions gst older

/-- `gr_garbage_collect`. -/
def grGarbageCollect (st : GrServerState c) : GrServerState c :=
  { st with store := fun key => garbageCollectItem st.gst (st.store key) }

/-- What it frees. -/
def grFreed (st : GrServerState c) : Store (Replica c) Unit :=
  fun key => freedVersions st.gst (st.store key).tail

/-- The state with freed versions back at the end of their chains. -/
def GrServerState.withFreed (f : Store (Replica c) Unit) (st : GrServerState c) :
    GrServerState c :=
  { st with store := fun key => st.store key ++ f key }

@[simp] theorem withFreed_getStates : (st.withFreed f).getStates = st.getStates := rfl
@[simp] theorem withFreed_putStates : (st.withFreed f).putStates = st.putStates := rfl
@[simp] theorem withFreed_snapshotStates :
    (st.withFreed f).snapshotStates = st.snapshotStates := rfl
@[simp] theorem withFreed_rotxStates : (st.withFreed f).rotxStates = st.rotxStates := rfl

theorem kept_append_freed (gst : ℚ) (chain : List (GrItem c)) :
    keptVersions gst chain ++ freedVersions gst chain = chain := by
  induction chain with
  | nil => rfl
  | cons item older ih =>
    rw [keptVersions, freedVersions]
    split
    · rfl
    · rw [List.cons_append, ih]

/-- Where something is freed, the version it was cut off from is older than the stable time. -/
theorem kept_of_freed {gst : ℚ} {chain : List (GrItem c)} (h : freedVersions gst chain ≠ []) :
    ∃ item ∈ keptVersions gst chain, item.updateTime < gst := by
  induction chain with
  | nil => exact absurd rfl h
  | cons item older ih =>
    rw [freedVersions] at h
    rw [keptVersions]
    split at h
    · rename_i hlt
      rw [if_pos hlt]
      exact ⟨item, List.mem_singleton_self item, hlt⟩
    · rename_i hle
      rw [if_neg hle]
      obtain ⟨item', hmem, hlt⟩ := ih h
      exact ⟨item', List.mem_cons_of_mem _ hmem, hlt⟩

theorem garbageCollect_append_freed (st : GrServerState c) (key : Key) :
    (grGarbageCollect st).store key ++ grFreed st key = st.store key := by
  simp only [grGarbageCollect, grFreed]
  cases st.store key with
  | nil => rfl
  | cons item older =>
    rw [garbageCollectItem, List.cons_append, List.tail_cons, kept_append_freed]

/-- **What the collection leaves behind**: where something was freed, a version is kept that is
older than the stable time. -/
def GrCollected (f : Store (Replica c) Unit) (st : GrServerState c) : Prop :=
  ∀ key, f key ≠ [] → ∃ item ∈ st.store key, item.updateTime < st.gst

theorem GrCollected.grow {st' : GrServerState c} (h : GrCollected f st) (hgrow : GrGrows st st') :
    GrCollected f st' := by
  intro key hf
  obtain ⟨item, hmem, hlt⟩ := h key hf
  exact ⟨item, (hgrow.1 key).subset hmem, hlt.trans_le hgrow.2⟩

theorem GrCollected.collect (h : GrCollected f st) :
    GrCollected (fun key => grFreed st key ++ f key) (grGarbageCollect st) := by
  intro key hf
  dsimp only at hf
  by_cases hfreed : grFreed st key = []
  · rw [hfreed, List.nil_append] at hf
    have hsame := garbageCollect_append_freed st key
    rw [hfreed, List.append_nil] at hsame
    rw [hsame]
    exact h key hf
  · obtain ⟨item, hmem, hlt⟩ := kept_of_freed hfreed
    refine ⟨item, ?_, hlt⟩
    simp only [grGarbageCollect]
    cases hchain : st.store key with
    | nil =>
      rw [hchain] at hmem
      cases hmem
    | cons head older =>
      rw [hchain] at hmem
      exact List.mem_cons_of_mem _ hmem

/-- The collection is undone by what it freed. -/
theorem withFreed_garbageCollect (f : Store (Replica c) Unit) (st : GrServerState c) :
    (grGarbageCollect st).withFreed (fun key => grFreed st key ++ f key) = st.withFreed f := by
  have hstore : ∀ key, (grGarbageCollect st).store key ++ (grFreed st key ++ f key) =
      st.store key ++ f key := by
    intro key
    rw [← List.append_assoc, garbageCollect_append_freed]
  simp only [GrServerState.withFreed, hstore]
  rfl

/-! ## 3. What handlers read -/

/-- A walk comes to the same version in a chain that was cut, if it comes to one before the cut. -/
theorem find?_append_eq_iff {α : Type} {p : α → Bool} {l m : List α} :
    (l ++ m).find? p = l.find? p ↔ ((∃ x ∈ m, p x) → ∃ x ∈ l, p x) := by
  rw [List.find?_append]
  cases hl : l.find? p with
  | some x =>
    refine iff_of_true rfl fun _ => ⟨x, List.mem_of_find?_eq_some hl, List.find?_some hl⟩
  | none =>
    rw [Option.none_or, List.find?_eq_none]
    rw [List.find?_eq_none] at hl
    constructor
    · rintro hm ⟨x, hx, hpx⟩
      exact absurd hpx (hm x hx)
    · intro h x hx hpx
      obtain ⟨y, hy, hpy⟩ := h ⟨x, hx, hpx⟩
      exact hl y hy hpy

/-- A version of the key that the snapshot sees is kept, if one was freed. -/
def GrSnapshotKept (f : Store (Replica c) Unit) (st : GrServerState c)
    (request : GrSliceRequest c) : Prop :=
  (∃ item ∈ f request.key, grIsValueVisibleSnapshot request.snapshotTime item) →
    ∃ item ∈ st.store request.key, grIsValueVisibleSnapshot request.snapshotTime item

/-- `gr_get_value` always finds what it would find without collection. -/
theorem grGetValue_withFreed (h : GrCollected f st) (key : Key) :
    grGetValue self (st.withFreed f) key = grGetValue self st key := by
  refine find?_append_eq_iff.mpr fun ⟨x, hx, _⟩ => ?_
  obtain ⟨item, hmem, hlt⟩ := h key (List.ne_nil_of_mem hx)
  exact ⟨item, hmem, decide_eq_true (.inr hlt.le)⟩

/-- **A slice finds what it would find without collection just when a version that its snapshot sees
is kept.** -/
theorem grSliceRead_withFreed {request : GrSliceRequest c} :
    getValueAt (st.withFreed f).store request.key (grIsValueVisibleSnapshot request.snapshotTime) =
        getValueAt st.store request.key (grIsValueVisibleSnapshot request.snapshotTime) ↔
      GrSnapshotKept f st request :=
  find?_append_eq_iff

/-- A value is put on top of what is kept. -/
theorem grPutValue_withFreed (h : GrCollected f st) (key : Key) (item : GrItem c) :
    grPutValue (st.withFreed f) key item =
      (grPutValue st key item).map fun store key => store key ++ f key := by
  have hupdate : ∀ chain, Function.update (fun key => st.store key ++ f key) key (chain ++ f key) =
      fun key' => Function.update st.store key chain key' ++ f key' := by
    intro chain
    funext key'
    by_cases hkey : key' = key
    · subst hkey
      simp only [Function.update_self]
    · simp only [Function.update_of_ne hkey]
  simp only [grPutValue, putValue, GrServerState.withFreed]
  cases hchain : st.store key with
  | nil =>
    have hnone : f key = [] := by
      by_contra hne
      obtain ⟨item, hmem, -⟩ := h key hne
      rw [hchain] at hmem
      cases hmem
    have hu := hupdate [item]
    rw [hnone, List.append_nil] at hu
    rw [hnone, List.append_nil]
    exact congrArg some hu
  | cons previous older =>
    rw [List.cons_append]
    dsimp only
    split
    · rfl
    · exact congrArg some (hupdate (item :: previous :: older))

/-- The latest version is kept. -/
theorem head_withFreed (h : GrCollected f st) (key : Key) :
    ((st.withFreed f).store key).head? = (st.store key).head? := by
  simp only [GrServerState.withFreed]
  cases hchain : st.store key with
  | nil =>
    by_cases hnone : f key = []
    · rw [hnone]
      rfl
    · obtain ⟨item, hmem, -⟩ := h key hnone
      rw [hchain] at hmem
      cases hmem
  | cons previous older => rfl

theorem grUpdateGst_withFreed (f : Store (Replica c) Unit) (st : GrServerState c) (gst : ℚ) :
    grUpdateGst (st.withFreed f) gst =
      ((grUpdateGst st gst).1.withFreed f, (grUpdateGst st gst).2) := by
  unfold grUpdateGst GrServerState.withFreed
  dsimp only
  split <;> rfl

/-- The work on a queue of updates looks at the latest versions only. -/
theorem replicaUpdateWork_congr {rules : UpdateRules (Replica c)}
    {store store' : Store (Replica c) Unit} (h : ∀ key, (store' key).head? = (store key).head?)
    (queue : List (GrReplicaUpdate c)) :
    replicaUpdateWork rules store' queue = replicaUpdateWork rules store queue := by
  have hlatest : ∀ key, latestItem store' key = latestItem store key := by
    intro key
    rw [latestItem_eq, latestItem_eq, h]
  induction queue with
  | nil => rfl
  | cons update queue ih =>
    have hconflicts : update.Conflicts rules.zero store' ↔ update.Conflicts rules.zero store := by
      rw [ReplicaUpdate.Conflicts, ReplicaUpdate.Conflicts, hlatest]
    have holder : update.IsOlder rules.zero store' ↔ update.IsOlder rules.zero store := by
      rw [ReplicaUpdate.IsOlder, ReplicaUpdate.IsOlder, hlatest]
    simp only [replicaUpdateWork, hconflicts, holder, hlatest, ih]

/-- The outcome with freed versions back at the end of their chains. -/
def grWithFreed (f : Store (Replica c) Unit) (r : GrOutcome c) : GrOutcome c :=
  { r with state := r.state.withFreed f }

/-- The events whose handlers look at no version. -/
def GrEvent.Storeless : GrEvent c → Prop
  | .getRequest _ => False
  | .getRequestUnlocked _ => False
  | .putRequestLocked _ => False
  | .replicaUpdate _ => False
  | .replicaUpdateLocked _ => False
  | .replicaUpdateUnlocked _ => False
  | .sliceRequest _ => False
  | .sliceRequestUnlocked _ => False
  | _ => True

theorem map_ite_withFreed {p : Prop} [Decidable p] (a b : Option (GrOutcome c)) :
    (if p then a else b).map (grWithFreed f) =
      if p then a.map (grWithFreed f) else b.map (grWithFreed f) :=
  apply_ite (Option.map (grWithFreed f)) p a b

/-- A slice that is received is not looked up. -/
theorem grProcessSliceResponseUnlocked_withFreed (slice : GrSliceResponse c) :
    grProcessSliceResponseUnlocked self (st.withFreed f) slice =
      (grProcessSliceResponseUnlocked self st slice).map (grWithFreed f) := by
  have hrotx : ∀ (st : GrServerState c) snapshot,
      grProcessRotxSnapshotResponse (st.withFreed f) snapshot =
        (grProcessRotxSnapshotResponse st snapshot).map (grWithFreed f) := by
    intro st snapshot
    simp only [grProcessRotxSnapshotResponse]
    rw [withFreed_rotxStates]
    cases ptrArrayGet st.rotxStates snapshot.requestId <;> rfl
  have hsend : ∀ (st : GrServerState c) snapshot,
      grSendSnapshotResponse self (st.withFreed f) snapshot =
        (grSendSnapshotResponse self st snapshot).map (grWithFreed f) := by
    intro st snapshot
    simp only [grSendSnapshotResponse, map_ite_withFreed, hrotx]
    rfl
  simp only [grProcessSliceResponseUnlocked]
  rw [withFreed_snapshotStates]
  cases ptrArrayGet st.snapshotStates slice.snapshotId with
  | none => rfl
  | some snapshot =>
    dsimp only
    rw [map_ite_withFreed, ← hsend]
    rfl

/-- The store is passed on by handlers that do not look at it. -/
theorem grProcessEvent_storeless {e : GrEvent c} (he : e.Storeless) :
    grProcessEvent self (st.withFreed f) e = (grProcessEvent self st e).map (grWithFreed f) := by
  cases e with
  | getRequest => exact he.elim
  | getRequestUnlocked => exact he.elim
  | putRequestLocked => exact he.elim
  | replicaUpdate => exact he.elim
  | replicaUpdateLocked => exact he.elim
  | replicaUpdateUnlocked => exact he.elim
  | sliceRequest => exact he.elim
  | sliceRequestUnlocked => exact he.elim
  | forwardGetRequestLocked request =>
    simp only [grProcessEvent, grProcessForwardGetRequestLocked, grUpdateGst_withFreed]
    rfl
  | getRequestLocked id =>
    simp only [grProcessEvent, grProcessGetRequestLocked, grUpdateGst_withFreed]
    rw [withFreed_getStates]
    cases ptrArrayGet st.getStates id <;> rfl
  | putRequest request =>
    simp only [grProcessEvent, grProcessPutRequest, map_ite_withFreed]
    rfl
  | putRequestUnlocked id =>
    simp only [grProcessEvent, grProcessPutRequestUnlocked]
    rw [withFreed_putStates]
    cases ptrArrayGet st.putStates id with
    | none => rfl
    | some putState =>
      dsimp only
      cases putState.stamp <;> rfl
  | lstFromLeaf leafLst =>
    simp only [grProcessEvent, grProcessLstFromLeaf, grSendLstToParent, map_ite_withFreed]
    rfl
  | lstFromLeafRootLocked =>
    simp only [grProcessEvent, grProcessLstFromLeafRootLocked, grUpdateGst_withFreed]
    rfl
  | startGstComputation =>
    simp only [grProcessEvent, grProcessStartGstComputation, grUpdateGst_withFreed,
      map_ite_withFreed]
    rfl
  | gstFromRootLocked rootGst =>
    simp only [grProcessEvent, grProcessGstFromRootLocked, grUpdateGst_withFreed]
    rfl
  | gstFromRootUnlocked rootGst =>
    simp only [grProcessEvent, grProcessGstFromRootUnlocked, map_ite_withFreed]
    rfl
  | getSnapshotRequestLocked id =>
    simp only [grProcessEvent, grProcessGetSnapshotRequestLocked, grUpdateGst_withFreed]
    rw [withFreed_snapshotStates]
    cases ptrArrayGet st.snapshotStates id <;> rfl
  | getSnapshotRequestUnlocked id =>
    simp only [grProcessEvent, grProcessGetSnapshotRequestUnlocked]
    rw [withFreed_snapshotStates]
    cases ptrArrayGet st.snapshotStates id <;> rfl
  | sliceRequestLocked request =>
    simp only [grProcessEvent, grProcessSliceRequestLocked, grUpdateGst_withFreed]
    rfl
  | sliceResponse slice =>
    simp only [grProcessEvent, grProcessSliceResponse, map_ite_withFreed,
      grProcessSliceResponseUnlocked_withFreed]
    rfl
  | sliceResponseUnlocked slice => exact grProcessSliceResponseUnlocked_withFreed slice
  | sliceResponseLocked slice =>
    simp only [grProcessEvent, grProcessSliceResponseLocked, grUpdateGst_withFreed]
    rfl
  | clockTick =>
    simp only [grProcessEvent, grProcessClockTick, grProcessClockTickUnlocked, map_ite_withFreed]
    rfl
  | clockTickLocked =>
    simp only [grProcessEvent, grProcessClockTickLocked, map_ite_withFreed]
    rfl
  | _ => rfl

/-- A GET from a slot. -/
theorem grProcessGetRequestUnlocked_withFreed (hc : GrCollected f st) (id : ℕ) :
    grProcessGetRequestUnlocked self (st.withFreed f) id =
      (grProcessGetRequestUnlocked self st id).map (grWithFreed f) := by
  have hanswer : ∀ getState,
      grGetAnswer self (st.withFreed f) getState = grGetAnswer self st getState := by
    intro getState
    rw [grGetAnswer, grGetValue_withFreed hc]
    rfl
  simp only [grProcessGetRequestUnlocked, hanswer]
  rw [withFreed_getStates]
  cases ptrArrayGet st.getStates id with
  | none => rfl
  | some getState =>
    dsimp only
    rw [map_ite_withFreed]
    rfl

theorem grProcessGetRequest_withFreed (hc : GrCollected f st) (request : GrGetRequest c) :
    grProcessGetRequest self (st.withFreed f) request =
      (grProcessGetRequest self st request).map (grWithFreed f) := by
  have hopened : GrCollected f { st with getStates := ptrArrayPut request.state st.getStates } := hc
  have hserve := @grProcessGetRequestUnlocked_withFreed c self _ f hopened
    (ptrArrayFree st.getStates)
  simp only [grProcessGetRequest, map_ite_withFreed]
  exact ite_congr rfl (fun _ => rfl) fun _ => ite_congr rfl (fun _ => rfl) fun _ => hserve

/-- A PUT under the lock goes on top of its chain. -/
theorem grProcessPutRequestLocked_withFreed (hc : GrCollected f st) (id : ℕ) :
    grProcessPutRequestLocked self (st.withFreed f) id =
      (grProcessPutRequestLocked self st id).map (grWithFreed f) := by
  have hstamp : ∀ key discarded,
      grPutStamp (st.withFreed f) key discarded = grPutStamp st key discarded := by
    intro key discarded
    simp only [grPutStamp, head_withFreed hc]
    rfl
  have houtcome : ∀ putState item,
      grPutOutcome self (st.withFreed f) id putState
          (grPutValue (st.withFreed f) putState.key item) =
        grWithFreed f (grPutOutcome self st id putState (grPutValue st putState.key item)) := by
    intro putState item
    rw [grPutValue_withFreed hc, grPutOutcome, hstamp]
    cases grPutValue st putState.key item <;> rfl
  simp only [grProcessPutRequestLocked]
  rw [withFreed_putStates]
  cases ptrArrayGet st.putStates id with
  | none => rfl
  | some putState =>
    dsimp only
    rw [map_ite_withFreed, Option.map_some, ← houtcome]
    rfl

theorem grProcessReplicaUpdateLocked_withFreed (hc : GrCollected f st)
    (update : GrReplicaUpdate c) :
    grProcessReplicaUpdateLocked self (st.withFreed f) update =
      (grProcessReplicaUpdateLocked self st update).map (grWithFreed f) := by
  simp only [grProcessReplicaUpdateLocked, map_ite_withFreed, grPutValue_withFreed hc]
  cases grPutValue st update.key update.item <;> rfl

/-- The work on updates from other replicas. -/
theorem grProcessReplicaUpdate_withFreed (hc : GrCollected f st) (update : GrReplicaUpdate c) :
    grProcessReplicaUpdate self (st.withFreed f) update =
        (grProcessReplicaUpdate self st update).map (grWithFreed f) ∧
      grProcessReplicaUpdateUnlocked self (st.withFreed f) update =
        (grProcessReplicaUpdateUnlocked self st update).map (grWithFreed f) := by
  have hwork := fun queue =>
    @replicaUpdateWork_congr c (grUpdateRules self) _ _ (head_withFreed hc) queue
  constructor
  · simp only [grProcessReplicaUpdate, replicaUpdateEnqueue, hwork, Option.map_map]
    rfl
  · have hdequeue : ∀ queue, replicaUpdateDequeue (grUpdateRules self) (st.withFreed f).store queue
        update = replicaUpdateDequeue (grUpdateRules self) st.store queue update := by
      intro queue
      cases queue with
      | nil => rfl
      | cons enqueued queue => simp only [replicaUpdateDequeue, hwork]
    simp only [grProcessReplicaUpdateUnlocked, hdequeue, Option.map_map]
    rfl

/-- The answer to a request for a slice, if its version is kept. -/
theorem grProcessSliceRequestUnlocked_withFreed {request : GrSliceRequest c}
    (hkept : GrSnapshotKept f st request) :
    grProcessSliceRequestUnlocked self (st.withFreed f) request =
      (grProcessSliceRequestUnlocked self st request).map (grWithFreed f) := by
  have hanswer : grSliceAnswer (st.withFreed f) request = grSliceAnswer st request := by
    rw [grSliceAnswer, grSliceRead_withFreed.mpr hkept]
    rfl
  simp only [grProcessSliceRequestUnlocked, hanswer, map_ite_withFreed]
  rfl

/-- The request for a slice that the handler of an event answers. -/
def grSliceServed (st : GrServerState c) : GrEvent c → Option (GrSliceRequest c)
  | .sliceRequest request => if request.snapshotTime ≤ st.gst then some request else none
  | .sliceRequestUnlocked request => some request
  | _ => none

/-- If a handler answers a request for a slice, the version is kept. -/
def GrEvent.Kept (f : Store (Replica c) Unit) (st : GrServerState c) (e : GrEvent c) : Prop :=
  ∀ request ∈ grSliceServed st e, GrSnapshotKept f st request

instance (request : GrSliceRequest c) : Decidable (GrSnapshotKept f st request) :=
  inferInstanceAs (Decidable (_ → _))

instance (e : GrEvent c) : Decidable (e.Kept f st) :=
  inferInstanceAs (Decidable (∀ request ∈ grSliceServed st e, GrSnapshotKept f st request))

/-- **Every handler does the same without collection**, but for a slice whose version is gone. -/
theorem grProcessEvent_withFreed {e : GrEvent c} (hc : GrCollected f st) (hkept : e.Kept f st) :
    grProcessEvent self (st.withFreed f) e = (grProcessEvent self st e).map (grWithFreed f) := by
  cases e with
  | getRequest request => exact grProcessGetRequest_withFreed hc request
  | getRequestUnlocked id => exact grProcessGetRequestUnlocked_withFreed hc id
  | putRequestLocked id => exact grProcessPutRequestLocked_withFreed hc id
  | replicaUpdate update => exact (grProcessReplicaUpdate_withFreed hc update).1
  | replicaUpdateLocked update => exact grProcessReplicaUpdateLocked_withFreed hc update
  | replicaUpdateUnlocked update => exact (grProcessReplicaUpdate_withFreed hc update).2
  | sliceRequest request =>
    simp only [grProcessEvent, grProcessSliceRequest, map_ite_withFreed]
    refine ite_congr rfl (fun _ => rfl) fun hneed => ?_
    have hle : request.snapshotTime ≤ st.gst := not_lt.mp fun hlt => hneed (decide_eq_true hlt)
    exact grProcessSliceRequestUnlocked_withFreed (hkept request (if_pos hle))
  | sliceRequestUnlocked request =>
    exact grProcessSliceRequestUnlocked_withFreed (hkept request rfl)
  | _ => exact grProcessEvent_storeless trivial

/-! ## 4. Runs with collection -/

/-- The versions that have been freed, by server. -/
abbrev GrFreed (c : Cluster) := ServerId c → Store (Replica c) Unit

/-- `gr_garbage_collect` at the server `s`. -/
def grCollectAt (s s' : ServerId c) (st : GrServerState c) : GrServerState c :=
  if s' = s then grGarbageCollect st else st

/-- What has been freed when it has run. -/
def GrFreed.collect (freed : GrFreed c) (s : ServerId c) (st : GrServerState c) : GrFreed c :=
  Function.update freed s fun key => grFreed st key ++ freed s key

/-- A run of the simulation in which `gr_garbage_collect` runs at any server between any two events,
with the versions that have been freed, and with its handler calls, the latest first, each with the
versions that had been freed before it. -/
inductive GrCollectedRun (conf : SimConfig (ServerId c) (ClientId c) (GrEvent c)) (W₀ : GrWorld c) :
    GrWorld c → GrFreed c → List (GrFreed c × GrAct c) → Prop
  | nil : GrCollectedRun conf W₀ W₀ (fun _ _ => []) []
  | step {W W' : GrWorld c} {freed : GrFreed c} {h : List (GrFreed c × GrAct c)}
      {a : Option (GrAct c)} (choice : Choice Decision) (hrun : GrCollectedRun conf W₀ W freed h)
      (hstep : W.step (grProgram c) conf choice = some (W', a)) :
      GrCollectedRun conf W₀ W' freed (a.toList.map (fun x => (freed, x)) ++ h)
  | collect {W : GrWorld c} {freed : GrFreed c} {h : List (GrFreed c × GrAct c)} (s : ServerId c)
      (hrun : GrCollectedRun conf W₀ W freed h) :
      GrCollectedRun conf W₀ (W.mapServers (grCollectAt s))
        (freed.collect s (W.servers s).state) h

/-- The world with the freed versions back at the end of their chains. -/
def grRestored (freed : GrFreed c) (W : GrWorld c) : GrWorld c :=
  W.mapServers fun s => .withFreed (freed s)

/-- A handler call on the state with the freed versions. -/
def grRestoredCall (x : GrFreed c × GrAct c) : GrAct c :=
  x.2.mapServers fun s => .withFreed (x.1 s)

/-- If a handler call answers a request for a slice, the version is kept. -/
def GrKeptCall : GrFreed c × GrAct c → Prop
  | (freed, .server s _ e st _) => e.Kept (freed s) st
  | (_, .client ..) => True

instance : DecidablePred (@GrKeptCall c)
  | (freed, .server s _ e st _) => inferInstanceAs (Decidable (e.Kept (freed s) st))
  | (_, .client ..) => inferInstanceAs (Decidable True)

variable {conf : SimConfig (ServerId c) (ClientId c) (GrEvent c)} {W₀ W : GrWorld c}
  {freed : GrFreed c} {h : List (GrFreed c × GrAct c)}

theorem grServerProcessEvent_withFreed {t : ℚ} {e : GrEvent c} (hc : GrCollected f st)
    (hkept : e.Kept f st) : grServerProcessEvent self t (st.withFreed f) e =
      (grServerProcessEvent self t st e).map (grWithFreed f) := by
  have hst : GrCollected f { st with now := t, clock := c.clock self t } := hc
  have hkept' : e.Kept f { st with now := t, clock := c.clock self t } := by
    cases e <;> exact hkept
  simp only [grServerProcessEvent, map_ite_withFreed]
  exact ite_congr rfl (fun _ => grProcessEvent_withFreed hst hkept') fun _ => rfl

/-- **In every state, a version that all GETs see is kept** where some were freed. -/
theorem gr_collected (hrun : GrCollectedRun conf W₀ W freed h) (s : ServerId c) :
    GrCollected (freed s) (W.servers s).state := by
  induction hrun with
  | nil =>
    intro key hne
    exact absurd rfl hne
  | step choice _ hstep ih =>
    rcases World.step_state hstep s with hsame | ⟨t, e, r, -, hserve, hstate⟩
    · rw [hsame]
      exact ih
    · rw [hstate]
      exact ih.grow (grServerProcessEvent_grows hserve)
  | @collect W freed h s' _ ih =>
    simp only [World.mapServers, grCollectAt, GrFreed.collect]
    by_cases hs : s = s'
    · subst hs
      rw [if_pos rfl, Function.update_self]
      exact ih.collect
    · rw [if_neg hs, Function.update_of_ne hs]
      exact ih

/-- The collection is undone by what it freed. -/
theorem grRestored_collect (s : ServerId c) (W : GrWorld c) (freed : GrFreed c) :
    grRestored (freed.collect s (W.servers s).state) (W.mapServers (grCollectAt s)) =
      grRestored freed W := by
  simp only [grRestored, World.mapServers, World.mk.injEq, true_and, and_true]
  funext s'
  simp only [grCollectAt, GrFreed.collect]
  by_cases hs : s' = s
  · subst hs
    rw [if_pos rfl, Function.update_self, withFreed_garbageCollect]
  · rw [if_neg hs, Function.update_of_ne hs]

theorem grRestored_nil (W : GrWorld c) : grRestored (fun _ _ => []) W = W := by
  simp only [grRestored, World.mapServers, GrServerState.withFreed, List.append_nil]

/-- **A run with collection is a run without**, as long as no slice asks for a version that is
gone. -/
theorem GrCollectedRun.restored (hrun : GrCollectedRun conf W₀ W freed h)
    (hkept : ∀ x ∈ h, GrKeptCall x) :
    World.Run (grProgram c) conf (fun _ _ => True) W₀ (grRestored freed W)
      (h.map grRestoredCall) := by
  induction hrun with
  | nil =>
    rw [grRestored_nil]
    exact .nil
  | @step W W' freed h a choice hrun hstep ih =>
    have hrespects : W.Respects (grProgram c) (fun s => .withFreed (freed s)) a := by
      rintro s t e r rfl hserve
      refine (grServerProcessEvent_withFreed (gr_collected hrun s) ?_).trans ?_
      · exact hkept _ (List.mem_append_left _ (List.mem_singleton_self _))
      · exact congrArg (Option.map (grWithFreed (freed s))) hserve
    have hrest := ih fun x hx => hkept x (List.mem_append_right _ hx)
    have hnext := World.Run.cons choice hrest (World.step_mapServers hstep hrespects)
      fun _ _ => trivial
    cases a with
    | none => exact hnext
    | some a => exact hnext
  | @collect W freed h s hrun ih =>
    rw [grRestored_collect]
    exact ih hkept

/-! ## 5. When the collection makes no difference -/

/-- **Collected versions are missed by no GET**, and by a slice just when its snapshot sees a
version that was freed, and none that was kept.  As long as no slice is answered then, a run with
collection is a run without: with the same events, answers and times, and the freed versions still
there. -/
theorem gr_collection_invisible (c : Cluster) :
    ∀ (setup : Setup c (GrEvent c)) (W : GrWorld c) (freed : GrFreed c)
      (h : List (GrFreed c × GrAct c)), GrCollectedRun setup.conf (grWorld setup) W freed h →
      (∀ s key, grGetValue s (W.servers s).state key =
        grGetValue s ((grRestored freed W).servers s).state key) ∧
      (∀ s (request : GrSliceRequest c),
        getValueAt (W.servers s).state.store request.key
            (grIsValueVisibleSnapshot request.snapshotTime) =
          getValueAt ((grRestored freed W).servers s).state.store request.key
            (grIsValueVisibleSnapshot request.snapshotTime) ↔
        GrSnapshotKept (freed s) (W.servers s).state request) ∧
      ((∀ x ∈ h, GrKeptCall x) → World.Run (grProgram c) setup.conf (fun _ _ => True)
        (grWorld setup) (grRestored freed W) (h.map grRestoredCall)) := by
  intro setup W freed h hrun
  refine ⟨fun s key => ?_, fun s request => ?_, hrun.restored⟩
  · exact (grGetValue_withFreed (gr_collected hrun s) key).symm
  · exact eq_comm.trans grSliceRead_withFreed

/-- A run without collection goes on from a run with collection. -/
theorem GrCollectedRun.append {C : GrCond c} {W' : GrWorld c} {h' : List (GrAct c)}
    (hrun : GrCollectedRun conf W₀ W freed h)
    (hmore : World.Run (grProgram c) conf C W W' h') :
    GrCollectedRun conf W₀ W' freed (h'.map (fun a => (freed, a)) ++ h) := by
  induction hmore with
  | nil => exact hrun
  | @cons W' W'' h' a choice _ hstep _ ih =>
    have hnext := GrCollectedRun.step choice ih hstep
    rwa [List.map_append, List.append_assoc]

/-- The choices `before`, a collection at the server `s`, and the choices `after`. -/
def grCollectedReplay (conf : SimConfig (ServerId c) (ClientId c) (GrEvent c)) (W₀ : GrWorld c)
    (before : List (Choice Decision)) (s : ServerId c) (after : List (Choice Decision)) :
    Option (GrWorld c × GrFreed c × List (GrFreed c × GrAct c)) := do
  let (W, h) ← World.replay (grProgram c) conf (fun _ _ _ => true) before W₀ []
  let freed := GrFreed.collect (fun _ _ => []) s (W.servers s).state
  let (W', h') ← World.replay (grProgram c) conf (fun _ _ _ => true) after
    (W.mapServers (grCollectAt s)) []
  pure (W', freed, h'.map (fun a => (freed, a)) ++ h.map fun a => (fun _ _ => [], a))

theorem GrCollectedRun.of_replay (conf : SimConfig (ServerId c) (ClientId c) (GrEvent c))
    (W₀ : GrWorld c) (before : List (Choice Decision)) (s : ServerId c)
    (after : List (Choice Decision))
    (seen : GrWorld c × GrFreed c × List (GrFreed c × GrAct c) → Bool)
    (hr : (grCollectedReplay conf W₀ before s after).any seen = true) :
    ∃ W freed h, GrCollectedRun conf W₀ W freed h ∧ seen (W, freed, h) = true := by
  obtain ⟨x, hx, hseen⟩ : ∃ x, grCollectedReplay conf W₀ before s after = some x ∧
      seen x = true := by
    cases hx : grCollectedReplay conf W₀ before s after with
    | none => simp [hx] at hr
    | some x => exact ⟨x, rfl, by simpa [hx] using hr⟩
  simp only [grCollectedReplay, Option.bind_eq_bind, Option.bind_eq_some_iff] at hx
  obtain ⟨⟨W, h⟩, hbefore, ⟨W', h'⟩, hafter, hx⟩ := hx
  cases hx
  refine ⟨_, _, _, ?_, hseen⟩
  have hfirst : GrCollectedRun conf W₀ W _ _ :=
    GrCollectedRun.nil.append (World.Run.nil.replay Cond.tested_true hbefore)
  rw [List.append_nil] at hfirst
  exact (hfirst.collect s).append (World.Run.nil.replay Cond.tested_true hafter)

/-! ## 6. A slice that misses its version -/

/-- A client that writes at the second partition, and one that reads at the third. -/
def trioSetup : Setup trio (GrEvent trio) :=
  { smallSetup (GrEvent trio) (1 / 100) (by decide +kernel) (by decide +kernel)
      [(1 / 2, clientAt trio 0 1 0), (241 / 100, clientAt trio 0 2 0)] (by decide +kernel) with }

/-- Three PUTs of key 1, the first of which is stable at all partitions and the third at the first
two of them; then a transaction at the third partition asks for a slice at the second one. -/
def collectingRun : List (Choice Decision) :=
  choices
    [(4, 0), (5, 0), (5, 0), (5, 1), (5, 0), (5, 0), (0, 0), (0, 1), (1, 0), (3, 0), (5, 0), (4, 0),
      (4, 1), (4, 1), (5, 0), (6, 0), (0, 1), (5, 1), (5, 0), (5, 0), (5, 0), (5, 0), (5, 1),
      (5, 0), (5, 0), (5, 0), (5, 1), (5, 0), (5, 0), (5, 0), (5, 1), (1, 0), (5, 0), (5, 0),
      (5, 0), (5, 1), (5, 0), (5, 0), (5, 0), (5, 0), (5, 1), (5, 0), (5, 0), (1, 1), (1, 0),
      (1, 0), (3, 0), (3, 0), (3, 0), (3, 1), (3, 1), (4, 0), (5, 0), (1, 1), (4, 1), (4, 0),
      (4, 0), (4, 0), (4, 0), (0, 0), (3, 1), (3, 1), (3, 0), (3, 0), (3, 0), (3, 0), (3, 0),
      (3, 0), (3, 1), (3, 1), (3, 0), (3, 0), (3, 1)]
    [(0, .put 1 7), (4, .tick (7 / 10)), (31, .put 1 8), (36, .put 1 9), (59, .rotx [1])] []

/-- The values of the slices that are handed over. -/
def grSliceValues (outs : List (GrOut c)) : List Value :=
  outs.filterMap fun o => match o.event with
    | .sliceResponse slice => some slice.value
    | _ => none

/-- The last handler call answers a request for a slice with no version, and would answer it with
this value if nothing had been freed. -/
def grMisses (value : Value) : List (GrFreed c × GrAct c) → Bool
  | (freed, .server s t e st r) :: _ =>
    decide (grSliceValues r.outs = [0]) &&
      (grServerProcessEvent s t (st.withFreed (freed s)) e).any fun r =>
        decide (grSliceValues r.outs = [value])
  | _ => false

theorem Mail.Step.served {S K E σ κ χ : Type} [DecidableEq S] [DecidableEq K]
    {P : Program S K E σ κ χ} {M M' : Mail S K E σ κ} {s : S} {t : ℚ} {e : E} {st : σ}
    {r : Outcome S K E σ} (h : Mail.Step P M (some (.server s t e st r)) M') :
    P.serve s t st e = some r := by
  generalize ha : some (Act.server s t e st r) = a at h
  cases h with
  | serve hev ht hserve =>
    cases ha
    exact hserve
  | client => cases ha
  | wait => cases ha

/-- What a slice misses is not missed in a run without collection. -/
theorem not_run_of_grMisses {setup : Setup c (GrEvent c)} {value : Value} (hvalue : value ≠ 0)
    (hmiss : grMisses value h = true) : ¬World.Run (grProgram c) setup.conf (fun _ _ => True)
      (grWorld setup) W (h.map grRestoredCall) := by
  intro hrun
  unfold grMisses at hmiss
  split at hmiss
  · rename_i freed s t e st r earlier
    obtain ⟨hnone, hsome⟩ := Bool.and_eq_true_iff.mp hmiss
    obtain ⟨M, M', -, hstep⟩ :=
      (hrun.config.mail (Q := fun _ => True) fun _ _ => trivial).before (List.nil_append _).symm
    have hserve : grServerProcessEvent s t (st.withFreed (freed s)) e =
        some { r with state := r.state.withFreed (freed s) } := hstep.served
    rw [hserve, Option.any_some, decide_eq_true_eq] at hsome
    have hsame := hsome.symm.trans (of_decide_eq_true hnone)
    exact hvalue (List.cons.inj hsame).1
  · cases hmiss

/-- A slice misses a version that was collected: its snapshot time, which was fixed at another
server, is below the stable time of the server that collected it. -/
theorem gr_slice_misses :
    ¬∀ (c : Cluster) (setup : Setup c (GrEvent c)) (W : GrWorld c) (freed : GrFreed c)
      (h : List (GrFreed c × GrAct c)), GrCollectedRun setup.conf (grWorld setup) W freed h →
      World.Run (grProgram c) setup.conf (fun _ _ => True) (grWorld setup) (grRestored freed W)
        (h.map grRestoredCall) := by
  intro hall
  obtain ⟨W, freed, h, hrun, hmiss⟩ := GrCollectedRun.of_replay trioSetup.conf
    (grWorld trioSetup) (collectingRun.take 67) (serverAt trio 0 1) (collectingRun.drop 67)
    (fun x => grMisses 7 x.2.2) (by decide +kernel)
  exact not_run_of_grMisses (by decide) hmiss (hall trio trioSetup W freed h hrun)

/-- Until then the collection made no difference. -/
theorem gr_collection_invisible_yet : ∃ W freed h,
    GrCollectedRun trioSetup.conf (grWorld trioSetup) W freed h ∧
      (freed (serverAt trio 0 1) 1).map Item.value = [7] ∧ (∀ x ∈ h, GrKeptCall x) ∧
      (∀ s key, grGetValue s (W.servers s).state key =
        grGetValue s ((grRestored freed W).servers s).state key) ∧
      World.Run (grProgram trio) trioSetup.conf (fun _ _ => True) (grWorld trioSetup)
        (grRestored freed W) (h.map grRestoredCall) := by
  obtain ⟨W, freed, h, hrun, hseen⟩ := GrCollectedRun.of_replay trioSetup.conf
    (grWorld trioSetup) (collectingRun.take 67) (serverAt trio 0 1)
    ((collectingRun.drop 67).take 5)
    (fun x => decide ((x.2.1 (serverAt trio 0 1) 1).map Item.value = [7]) &&
      decide (∀ y ∈ x.2.2, GrKeptCall y)) (by decide +kernel)
  obtain ⟨hfreed, hkept⟩ := Bool.and_eq_true_iff.mp hseen
  have hinvisible := gr_collection_invisible trio trioSetup W freed h hrun
  exact ⟨W, freed, h, hrun, of_decide_eq_true hfreed, of_decide_eq_true hkept, hinvisible.1,
    hinvisible.2.2 (of_decide_eq_true hkept)⟩

end CCSim
