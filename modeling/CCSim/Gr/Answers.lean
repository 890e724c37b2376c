/-
# What answers say (`gr`)

An answer returns the time of a version, and by the time it is received the version may not be the
latest any more.  But it is still there: the server that holds the key has it in its chain, and
lets GETs see it (`GrHolds`), because stores and stable times only grow.  This holds of the answers
to GETs, of the slices of a snapshot, which are only read at a server whose stable time has reached
the time of the snapshot, and of the answers to transactions (`gr_true`).
-/
import CCSim.Gr.Frames
import CCSim.Gr.Snapshots
import CCSim.Reads

namespace CCSim

variable {c : Cluster}

/-! ## 1. What a server holds -/

/-- The server has a version of this time, or the time stands for no version. -/
def GrHolds (s : ServerId c) (st : GrServerState c) (key : Key) (u : ℚ) : Prop :=
  u = 0 ∨ ∃ item ∈ st.store key, item.updateTime = u ∧ grIsValueVisible s st.gst item

/-- Nothing is lost. -/
def GrGrows (st st' : GrServerState c) : Prop :=
  (∀ key, st.store key <:+ st'.store key) ∧ st.gst ≤ st'.gst

theorem GrGrows.refl (st : GrServerState c) : GrGrows st st :=
  ⟨fun _ => List.suffix_refl _, le_rfl⟩

theorem GrHolds.grow {s : ServerId c} {st st' : GrServerState c} {key : Key} {u : ℚ}
    (h : GrHolds s st key u) (hg : GrGrows st st') : GrHolds s st' key u := by
  rcases h with h | ⟨item, hmem, hu, hv⟩
  · exact .inl h
  · exact .inr ⟨item, (hg.1 key).subset hmem, hu, grIsValueVisible_mono hg.2 hv⟩

/-- What is found in a chain is held, if it is visible. -/
theorem grHolds_find {s : ServerId c} {st : GrServerState c} {key : Key} {p : GrItem c → Bool}
    (hp : ∀ item, p item → grIsValueVisible s st.gst item) :
    GrHolds s st key (updateTimeOf (getValueAt st.store key p)) := by
  unfold getValueAt
  cases hf : (st.store key).find? p with
  | none => exact .inl rfl
  | some item => exact .inr ⟨item, List.mem_of_find?_eq_some hf, rfl, hp item (List.find?_some hf)⟩

/-- What is held is not later than what is found, by a search that would find it. -/
theorem GrHolds.le_find {s : ServerId c} {st : GrServerState c} {key : Key} {u : ℚ}
    (h : GrHolds s st key u) (hd : Descending (st.store key)) {p : GrItem c → Bool}
    (hp : ∀ item : GrItem c, item.updateTime = u → grIsValueVisible s st.gst item → p item) :
    u ≤ updateTimeOf (getValueAt st.store key p) := by
  rcases h with rfl | ⟨item, hmem, hu, hv⟩
  · unfold getValueAt
    cases hf : (st.store key).find? p with
    | none => exact le_rfl
    | some item => exact (hd.2 item (List.mem_of_find?_eq_some hf)).le
  · exact hu ▸ hd.le_find hmem (hp item hu hv)

theorem grServerProcessEvent_grows {s : ServerId c} {t : ℚ} {st : GrServerState c} {e : GrEvent c}
    {r : GrOutcome c} (h : grServerProcessEvent s t st e = some r) : GrGrows st r.state := by
  refine ⟨fun key => ?_, grServerProcessEvent_gst h⟩
  obtain ⟨jobs, hm, -⟩ := (grReplicating c).move h
  show ((grReplicating c).view s st).store key <:+ ((grReplicating c).view s r.state).store key
  rcases hm.store key with hstore | ⟨x, hstore, -⟩
  · rw [hstore]
  · rw [hstore]
    exact List.suffix_cons _ _

/-! ## 2. What is said about the servers -/

/-- What an answer returns is held by the server of the key, and a slice is only read when the
stable time has reached the time of its snapshot. -/
def GrTrue (server : ServerId c → GrServerState c) : (ServerId c ⊕ ClientId c) × GrEvent c → Prop
  | (_, .getResponse response) =>
    GrHolds (lpidForKey response.client.server response.key)
      (server (lpidForKey response.client.server response.key)) response.key
      response.updateTimestamp
  | (.inl s, .sliceRequestUnlocked request) => request.snapshotTime ≤ (server s).gst
  | (.inl s, .sliceResponse slice) => slice.updateTime = updateTimeOf slice.read ∧
    GrHolds (lpidForKey s slice.key) (server (lpidForKey s slice.key)) slice.key slice.updateTime
  | (.inl s, .sliceResponseLocked slice) => slice.updateTime = updateTimeOf slice.read ∧
    GrHolds (lpidForKey s slice.key) (server (lpidForKey s slice.key)) slice.key slice.updateTime
  | (.inl s, .sliceResponseUnlocked slice) => slice.updateTime = updateTimeOf slice.read ∧
    GrHolds (lpidForKey s slice.key) (server (lpidForKey s slice.key)) slice.key slice.updateTime
  | (.inr k, .rotxResponse response) => ∀ read ∈ response.reads,
    updateTimeOf read.item ≤ response.updateTimestamp ∧
      GrHolds (lpidForKey k.server read.key) (server (lpidForKey k.server read.key)) read.key
        (updateTimeOf read.item)
  | _ => True

/-- A transaction that does not wait has its dependencies below the stable time, and the slices
that a snapshot has received are held. -/
structure GrKeeps (server : ServerId c → GrServerState c) (s : ServerId c)
    (st : GrServerState c) : Prop where
  rotx : ∀ id rotx, ptrArrayGet st.rotxStates id = some rotx → rotx.waitingGst = false →
    rotx.dependencyTime ≤ st.gst
  snapshot : ∀ id snapshot, ptrArrayGet st.snapshotStates id = some snapshot →
    ∀ read ∈ snapshot.reads, updateTimeOf read.item ≤ snapshot.updateTime ∧
      GrHolds (lpidForKey s read.key) (server (lpidForKey s read.key)) read.key
        (updateTimeOf read.item)

section Grow

variable {server server' : ServerId c → GrServerState c}

theorem GrTrue.grow {x : (ServerId c ⊕ ClientId c) × GrEvent c} (h : GrTrue server x)
    (hg : ∀ s, GrGrows (server s) (server' s)) : GrTrue server' x := by
  obtain ⟨p, e⟩ := x
  cases p <;> cases e <;>
    first
      | trivial
      | exact GrHolds.grow h (hg _)
      | exact ⟨h.1, h.2.grow (hg _)⟩
      | exact le_trans h (hg _).2
      | exact fun read hread => ⟨(h read hread).1, (h read hread).2.grow (hg _)⟩

theorem GrKeeps.grow {s : ServerId c} {st : GrServerState c} (h : GrKeeps server s st)
    (hg : ∀ s, GrGrows (server s) (server' s)) : GrKeeps server' s st where
  rotx := h.rotx
  snapshot id snapshot hget read hread :=
    ⟨(h.snapshot id snapshot hget read hread).1,
      (h.snapshot id snapshot hget read hread).2.grow (hg _)⟩

theorem grTrue_other {x : (ServerId c ⊕ ClientId c) × GrEvent c} (h : x.2.Other) :
    GrTrue server x := by
  obtain ⟨p, e⟩ := x
  cases e <;> first | exact h.elim | (cases p <;> trivial)

theorem GrKeeps.of_eq {s : ServerId c} {st st' : GrServerState c} (h : GrKeeps server s st)
    (hgst : st.gst ≤ st'.gst) (hrotx : st'.rotxStates = st.rotxStates)
    (hsnapshot : st'.snapshotStates = st.snapshotStates) : GrKeeps server s st' where
  rotx id rotx hget hidle := by
    rw [hrotx] at hget
    exact (h.rotx id rotx hget hidle).trans hgst
  snapshot := by
    rw [hsnapshot]
    exact h.snapshot

theorem GrKeeps.updateGst {s : ServerId c} {st : GrServerState c} (h : GrKeeps server s st)
    (gst : ℚ) : GrKeeps server s (grUpdateGst st gst).1 where
  rotx id rotx' hget hidle := by
    rw [grUpdateGst_gst]
    obtain ⟨rotx, hrotx, rfl | ⟨rfl, hlt⟩⟩ := grUpdateGst_rotx hget
    · exact (h.rotx id _ hrotx hidle).trans (le_max_left _ _)
    · exact hlt.le.trans (le_max_right _ _)
  snapshot := by
    rw [grUpdateGst_snapshotStates]
    exact h.snapshot

/-- A request for a snapshot says nothing about the servers. -/
theorem grUpdateGst_true (s : ServerId c) (st : GrServerState c) (gst : ℚ) :
    ∀ o ∈ (grUpdateGst st gst).2, GrTrue server (o.place s, o.event) := by
  intro o ho
  obtain ⟨id, rotx, -, rfl⟩ := grUpdateGst_out ho
  trivial

/-- The answer to a GET returns what the server holds. -/
theorem grGetAnswer_true {s : ServerId c} {st : GrServerState c} {getState : GrGetState c}
    (hkey : lpidForKey getState.client.server getState.key = s) (hgrow : GrGrows st (server s)) :
    GrTrue server ((grSend getState.destination (.getResponse (grGetAnswer s st getState))).place s,
      (grSend getState.destination (.getResponse (grGetAnswer s st getState))).event) := by
  have hholds : GrHolds (lpidForKey getState.client.server getState.key)
      (server (lpidForKey getState.client.server getState.key)) getState.key
      (updateTimeOf (grGetValue s st getState.key)) := by
    rw [hkey]
    exact (grHolds_find fun _ h => h).grow hgrow
  cases getState.destination <;> exact hholds

end Grow

/-- A snapshot with one more slice. -/
theorem grReceiveSlice_reads {server : ServerId c → GrServerState c} {s : ServerId c}
    {slice : GrSliceResponse c} {snapshot : GrSnapshotState c}
    (hslice : slice.updateTime = updateTimeOf slice.read ∧ GrHolds (lpidForKey s slice.key)
      (server (lpidForKey s slice.key)) slice.key slice.updateTime)
    (h : ∀ read ∈ snapshot.reads, updateTimeOf read.item ≤ snapshot.updateTime ∧
      GrHolds (lpidForKey s read.key) (server (lpidForKey s read.key)) read.key
        (updateTimeOf read.item)) :
    ∀ read ∈ (grReceiveSlice snapshot slice).reads,
      updateTimeOf read.item ≤ (grReceiveSlice snapshot slice).updateTime ∧
        GrHolds (lpidForKey s read.key) (server (lpidForKey s read.key)) read.key
          (updateTimeOf read.item) := by
  have hmax : (grReceiveSlice snapshot slice).updateTime =
      max snapshot.updateTime slice.updateTime := by
    simp only [grReceiveSlice]
    split
    · rename_i hlt
      exact (max_eq_right hlt.le).symm
    · rename_i hle
      exact (max_eq_left (not_lt.mp hle)).symm
  rw [hmax]
  refine List.forall_mem_cons.mpr ⟨⟨?_, ?_⟩, fun read hread => ⟨?_, (h read hread).2⟩⟩
  · exact hslice.1 ▸ le_max_right _ _
  · exact hslice.1 ▸ hslice.2
  · exact (h read hread).1.trans (le_max_left _ _)

/-- **Every handler says what is true**, if it was told what is true. -/
theorem GrWork.true {server server' : ServerId c → GrServerState c} {s : ServerId c} {t : ℚ}
    {e : GrEvent c} {r : GrOutcome c} {st : GrServerState c}
    (hst : st = { server s with now := t, clock := c.clock s t }) (hw : GrWork s st e r)
    (hformed : GrFormed s st) (haddr : GrAddressed (.inl s, e)) (hr : server' s = r.state)
    (hgrow : ∀ s', GrGrows (server s') (server' s')) (hk : GrKeeps server s (server s))
    (he : GrTrue server (.inl s, e)) :
    GrKeeps server' s r.state ∧ ∀ x ∈ r.placed s, GrTrue server' x := by
  have hgst : st.gst = (server s).gst := by rw [hst]
  have hself : GrGrows st (server' s) := by
    rw [hst]
    exact hgrow s
  replace hk : GrKeeps server' s st := by
    rw [hst]
    exact (hk.grow hgrow).of_eq le_rfl rfl rfl
  have hmore : st.gst ≤ r.state.gst := hr ▸ hself.2
  have he₀ := he
  replace he : GrTrue server' (.inl s, e) := he.grow hgrow
  cases hw with
  | other _ _ _ hsnapshot hrotx hnew =>
    exact ⟨hk.of_eq hmore hrotx hsnapshot, fun x hx => grTrue_other (hnew x hx)⟩
  | wake _ gst others hstate hplaced hothers =>
    rw [hstate, hplaced]
    refine ⟨hk.updateGst gst, fun x hx => ?_⟩
    rcases List.mem_append.mp hx with hx | hx
    · obtain ⟨o, ho, rfl⟩ := List.mem_map.mp hx
      exact grUpdateGst_true s st gst o ho
    · exact grTrue_other (hothers x hx)
  | getForward _ hcont =>
    refine ⟨hk, Outcome.forall_placed (List.forall_mem_singleton.mpr trivial) fun e he => ?_⟩
    exact grTrue_other (x := (.inl s, e)) (hcont e he)
  | getOpen =>
    refine ⟨hk.of_eq hmore rfl rfl, Outcome.forall_placed (List.forall_mem_nil _) ?_⟩
    rintro _ ⟨⟩
    trivial
  | @getServe request hkey =>
    have hhome : lpidForKey request.client.server request.key = s := lpidForKey_home haddr hkey
    refine ⟨hk.of_eq hmore rfl rfl,
      Outcome.forall_placed (List.forall_mem_singleton.mpr ?_) (by rintro _ ⟨⟩)⟩
    exact grGetAnswer_true hhome hself
  | getLocked =>
    refine ⟨hk.updateGst _, Outcome.forall_placed (grUpdateGst_true s st _) ?_⟩
    rintro _ ⟨⟩
    trivial
  | @getUnlocked id getState hget hkey =>
    refine ⟨hk.of_eq hmore rfl rfl,
      Outcome.forall_placed (List.forall_mem_singleton.mpr ?_) (by rintro _ ⟨⟩)⟩
    exact grGetAnswer_true (hformed.get id getState hget).1 hself
  | getResponse =>
    exact ⟨hk, Outcome.forall_placed (List.forall_mem_singleton.mpr he) (by rintro _ ⟨⟩)⟩
  | putForward =>
    exact ⟨hk, Outcome.forall_placed (List.forall_mem_singleton.mpr trivial) (by rintro _ ⟨⟩)⟩
  | putDefer =>
    exact ⟨hk, Outcome.forall_placed (List.forall_mem_singleton.mpr trivial) (by rintro _ ⟨⟩)⟩
  | putOpen =>
    refine ⟨hk.of_eq hmore rfl rfl, Outcome.forall_placed (List.forall_mem_nil _) ?_⟩
    rintro _ ⟨⟩
    trivial
  | putLocked =>
    refine ⟨hk.of_eq hmore rfl rfl, Outcome.forall_placed (List.forall_mem_nil _) ?_⟩
    rintro _ ⟨⟩
    trivial
  | @putUnlocked id putState stamp hput hstamp =>
    refine ⟨hk.of_eq hmore rfl rfl,
      Outcome.forall_placed (List.forall_mem_cons.mpr ⟨?_, fun o ho => ?_⟩) (by rintro _ ⟨⟩)⟩
    · cases putState.destination <;> trivial
    · split at ho
      · cases ho
      · obtain ⟨s', -, rfl⟩ := List.mem_map.mp ho
        trivial
  | putResponse =>
    exact ⟨hk, Outcome.forall_placed (List.forall_mem_singleton.mpr trivial) (by rintro _ ⟨⟩)⟩
  | rotxRequest =>
    refine ⟨⟨forall_ptrArrayPut hk.rotx fun hidle => ?_, hk.snapshot⟩,
      Outcome.forall_placed (fun o ho => ?_) (by rintro _ ⟨⟩)⟩
    · simpa [GrGetRotxRequest.state] using hidle
    · dsimp only at ho
      split at ho
      · cases ho
      · obtain rfl := List.mem_singleton.mp ho
        trivial
  | snapshotRequest =>
    refine ⟨⟨hk.rotx, forall_ptrArrayPut hk.snapshot (List.forall_mem_nil _)⟩,
      Outcome.forall_placed (List.forall_mem_nil _) ?_⟩
    rintro _ ⟨⟩
    trivial
  | @snapshotLocked id snapshot hget =>
    have hk' := hk.updateGst snapshot.gst
    have hget' : ptrArrayGet (grUpdateGst st snapshot.gst).1.snapshotStates id = some snapshot := by
      rw [grUpdateGst_snapshotStates]
      exact hget
    refine ⟨⟨hk'.rotx, forall_ptrArraySet hk'.snapshot hget' ?_⟩,
      Outcome.forall_placed (grUpdateGst_true s st _) ?_⟩
    · rintro _ ⟨⟩
      exact hk.snapshot id snapshot hget
    · rintro _ ⟨⟩
      trivial
  | @snapshotUnlocked id snapshot hget =>
    refine ⟨hk, Outcome.forall_placed (fun o ho => ?_) (by rintro _ ⟨⟩)⟩
    obtain ⟨i, hi, rfl⟩ := List.mem_mapIdx.mp ho
    trivial
  | sliceRequest =>
    refine ⟨hk, Outcome.forall_placed (List.forall_mem_nil _) ?_⟩
    rintro _ ⟨⟩
    trivial
  | @sliceLocked request =>
    refine ⟨hk.updateGst _, Outcome.forall_placed (grUpdateGst_true s st _) ?_⟩
    rintro _ ⟨⟩
    show request.snapshotTime ≤ (server' s).gst
    rw [hr, grUpdateGst_gst]
    exact le_max_right _ _
  | @sliceServe _ request he' hkey =>
    refine ⟨hk, Outcome.forall_placed (List.forall_mem_singleton.mpr ⟨rfl, ?_⟩) (by rintro _ ⟨⟩)⟩
    have htime : request.snapshotTime ≤ st.gst := by
      rcases he' with rfl | ⟨-, hle⟩
      · exact hgst ▸ he₀
      · exact hle
    have hhome : lpidForKey request.fromLpid request.key = s := by
      rcases he' with rfl | ⟨rfl, -⟩ <;> exact haddr
    have hholds : GrHolds s st request.key (updateTimeOf
        (getValueAt st.store request.key (grIsValueVisibleSnapshot request.snapshotTime))) := by
      refine grHolds_find fun item hitem => ?_
      have hle : item.updateTime ≤ request.snapshotTime := of_decide_eq_true hitem
      exact decide_eq_true (.inr (hle.trans htime))
    rw [grSliceAnswer, hhome]
    exact hholds.grow hself
  | sliceResponse =>
    refine ⟨hk, Outcome.forall_placed (List.forall_mem_nil _) ?_⟩
    rintro _ ⟨⟩
    exact he
  | receiveLocked =>
    refine ⟨hk.updateGst _, Outcome.forall_placed (grUpdateGst_true s st _) ?_⟩
    rintro _ ⟨⟩
    exact he
  | @receive _ slice snapshot he' hget =>
    have hslice : slice.updateTime = updateTimeOf slice.read ∧ GrHolds (lpidForKey s slice.key)
        (server' (lpidForKey s slice.key)) slice.key slice.updateTime := by
      rcases he' with rfl | rfl <;> exact he
    refine ⟨⟨hk.rotx, forall_ptrArraySet hk.snapshot hget ?_⟩,
      Outcome.forall_placed (List.forall_mem_nil _) (by rintro _ ⟨⟩)⟩
    rintro _ ⟨⟩
    exact grReceiveSlice_reads hslice (hk.snapshot _ _ hget)
  | @receiveLast _ slice snapshot rotx he' hget _ hrotx =>
    have hslice : slice.updateTime = updateTimeOf slice.read ∧ GrHolds (lpidForKey s slice.key)
        (server' (lpidForKey s slice.key)) slice.key slice.updateTime := by
      rcases he' with rfl | rfl <;> exact he
    refine ⟨⟨forall_ptrArraySet hk.rotx hrotx (by rintro _ ⟨⟩),
      forall_ptrArraySet hk.snapshot hget (by rintro _ ⟨⟩)⟩,
      Outcome.forall_placed (List.forall_mem_singleton.mpr ?_) (by rintro _ ⟨⟩)⟩
    have hreads := grReceiveSlice_reads hslice (hk.snapshot _ _ hget)
    -- the client is in the data center of the server
    have hhome : ∀ key, lpidForKey rotx.client.server key = lpidForKey s key := by
      intro key
      exact Prod.ext (hformed.rotx _ _ hrotx).2.2 rfl
    intro read hread
    rw [hhome]
    exact hreads read hread
  | abroad _ hget hclient => exact absurd (hformed.snapshot _ _ hget) hclient

/-! ## 3. Every run -/

theorem gr_true {setup : Setup c (GrEvent c)} {Q : GrAct c → Prop} {M : GrMail c}
    {h : List (GrAct c)} (hr : Mail.Run (grProgram c) Q (grWorld setup).config.mail M h) :
    (∀ s, GrKeeps M.server s (M.server s)) ∧ ∀ x ∈ M.events, GrTrue M.server x := by
  refine hr.flow_growing (fun server s => GrKeeps server s (server s)) GrTrue GrGrows.refl
    grServerProcessEvent_grows (fun hgrow hself hk => hself ▸ hk.grow hgrow)
    (fun hgrow hx => hx.grow hgrow) ?_ ?_ ?_ ?_
  · intro M h s t e r hrun hmem hserve hgrow hk he
    have hformed := gr_formed hrun
    have hwork := grProcessEvent_work (grServerProcessEvent_some hserve)
    have htrue := hwork.true rfl ((hformed.1 s).of_eq rfl rfl rfl rfl) (hformed.2 _ hmem)
      (Function.update_self s r.state M.server) hgrow hk he
    rwa [Function.update_self]
  · intro M h k t d e r hrun hclient x hx
    obtain ⟨st', -, -, hasks⟩ := grClientProcessEvent_asks hclient
    cases hasks x hx <;> trivial
  · exact fun s => ⟨by rintro id _ ⟨⟩, by rintro id _ ⟨⟩⟩
  · intro x hx
    rcases Setup.mem_mail hx with ⟨s, rfl, -⟩ | ⟨s, rfl⟩ | ⟨k, rfl⟩ <;> trivial

theorem gr_descending {setup : Setup c (GrEvent c)} {C : GrCond c}
    {A : Config (ServerId c) (ClientId c) (GrEvent c) (GrServerState c) (GrClientState c)}
    {h : List (GrAct c)} (hr : Run (grProgram c) C (grWorld setup).config A h) (s : ServerId c)
    (key : Key) : Descending ((A.server s).store key) :=
  Replicating.descending (R := grReplicating c) (grWorld_fresh setup) hr s key

end CCSim
