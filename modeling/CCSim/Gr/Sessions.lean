/-
# What a client sees again (`gr`)

Once a client has seen a version of a key, or written one, it sees no older version of the key any
more, neither by a GET nor in a transaction.  From then on there is something that makes sure of it
in every place where a request of the client can be (`GrSession`): the server of the key has the
version, the client depends on it, a transaction of the client waits until the stable time has
reached it, the snapshot is not taken before it, and what was read for a slice is not older.  The
session starts when the client gets its answer, because nothing else is under way for the client at
that moment, and every step keeps it.
-/
import CCSim.Gr.Answers

namespace CCSim

variable {c : Cluster}

/-! ## 1. Snapshots for a client -/

/-- The slot `id` holds a snapshot that is taken for a transaction of the client `k`. -/
def GrSnapshotFor (st : GrServerState c) (id : ℕ) (k : ClientId c) (snapshot : GrSnapshotState c) :
    Prop :=
  ptrArrayGet st.snapshotStates id = some snapshot ∧
    ∃ rotx, ptrArrayGet st.rotxStates snapshot.requestId = some rotx ∧ rotx.client = k

/-- A transaction has been there before, or was just requested. -/
theorem GrWork.rotx_back {s : ServerId c} {st : GrServerState c} {e : GrEvent c} {r : GrOutcome c}
    (hw : GrWork s st e r) (hst : GrFormed s st) {id : ℕ} {rotx' : GrRotxState c}
    (hget : ptrArrayGet r.state.rotxStates id = some rotx') :
    (∃ rotx, ptrArrayGet st.rotxStates id = some rotx ∧ rotx'.client = rotx.client ∧
      rotx'.dependencyTime = rotx.dependencyTime) ∨
    ∃ request, e = .rotxRequest request ∧ ptrArrayGet st.rotxStates id = none ∧
      rotx'.client = request.client ∧ rotx'.dependencyTime = request.dependencyTime := by
  have hupdate : ∀ {gst : ℚ}, ptrArrayGet (grUpdateGst st gst).1.rotxStates id = some rotx' →
      ∃ rotx, ptrArrayGet st.rotxStates id = some rotx ∧ rotx'.client = rotx.client ∧
        rotx'.dependencyTime = rotx.dependencyTime := by
    intro gst h
    obtain ⟨rotx, hrotx, rfl | ⟨rfl, -⟩⟩ := grUpdateGst_rotx h
    · exact ⟨_, hrotx, rfl, rfl⟩
    · exact ⟨rotx, hrotx, rfl, rfl⟩
  cases hw with
  | other _ _ _ _ hrotx => exact .inl ⟨rotx', hrotx ▸ hget, rfl, rfl⟩
  | wake _ gst _ hstate => exact .inl (hupdate (hstate ▸ hget))
  | getLocked => exact .inl (hupdate hget)
  | snapshotLocked => exact .inl (hupdate hget)
  | sliceLocked => exact .inl (hupdate hget)
  | receiveLocked => exact .inl (hupdate hget)
  | rotxRequest =>
    rw [ptrArrayPut_get] at hget
    split at hget
    · rename_i hid
      cases hget
      exact .inr ⟨_, rfl, hid ▸ ptrArrayFree_get _, rfl, rfl⟩
    · exact .inl ⟨rotx', hget, rfl, rfl⟩
  | receiveLast _ _ _ hrotx =>
    rw [ptrArraySet_get hrotx] at hget
    split at hget
    · cases hget
    · exact .inl ⟨rotx', hget, rfl, rfl⟩
  | abroad _ hsnapshot hclient => exact absurd (hst.snapshot _ _ hsnapshot) hclient
  | _ => exact .inl ⟨rotx', hget, rfl, rfl⟩

/-- What became of a snapshot in a handler call. -/
inductive GrBecame (e : GrEvent c) (id : ℕ) (snapshot : GrSnapshotState c) :
    GrSnapshotState c → Prop
  | same : GrBecame e id snapshot snapshot
  | lock (gst time : ℚ) (he : e = .getSnapshotRequestLocked id) :
      GrBecame e id snapshot { snapshot with gst := gst, time := time }
  | receive (slice : GrSliceResponse c)
      (he : e = .sliceResponse slice ∨ e = .sliceResponseUnlocked slice)
      (hid : slice.snapshotId = id) : GrBecame e id snapshot (grReceiveSlice snapshot slice)

/-- A snapshot for a client was one before, or was just requested. -/
theorem GrWork.snapshot_back {s : ServerId c} {st : GrServerState c} {e : GrEvent c}
    {r : GrOutcome c} (hw : GrWork s st e r) (hst : GrFormed s st)
    (hlive : ∀ id snapshot, ptrArrayGet st.snapshotStates id = some snapshot →
      ∃ rotx, ptrArrayGet st.rotxStates snapshot.requestId = some rotx ∧ rotx.waitingGst = false)
    {id : ℕ} {k : ClientId c} {snapshot' : GrSnapshotState c}
    (hfor : GrSnapshotFor r.state id k snapshot') :
    (∃ request, e = .getSnapshotRequest request ∧ id = ptrArrayFree st.snapshotStates ∧
      snapshot' = request.state) ∨
    ∃ snapshot, GrSnapshotFor st id k snapshot ∧ GrBecame e id snapshot snapshot' := by
  obtain ⟨hget, rotx', hrotx', hk⟩ := hfor
  -- the transaction of a snapshot that was there was there, too
  have hback : ∀ snapshot, ptrArrayGet st.snapshotStates id = some snapshot →
      snapshot'.requestId = snapshot.requestId → GrSnapshotFor st id k snapshot := by
    intro snapshot hsnapshot hid
    refine ⟨hsnapshot, ?_⟩
    obtain ⟨rotx₀, hrotx₀, -⟩ := hlive id snapshot hsnapshot
    rw [hid] at hrotx'
    rcases hw.rotx_back hst hrotx' with ⟨rotx, hrotx, hclient, -⟩ | ⟨_, -, hnone, -⟩
    · exact ⟨rotx, hrotx, hclient.symm.trans hk⟩
    · rw [hnone] at hrotx₀
      cases hrotx₀
  cases hw.snapshotStep hst with
  | same _ hslots =>
    rw [hslots] at hget
    exact .inr ⟨snapshot', hback _ hget rfl, .same⟩
  | take request he _ hslots =>
    rw [hslots, ptrArrayPut_get] at hget
    split at hget
    · rename_i hid
      cases hget
      exact .inl ⟨request, he, hid, rfl⟩
    · exact .inr ⟨snapshot', hback _ hget rfl, .same⟩
  | lock i snapshot gst time he hget₀ _ hslots =>
    rw [hslots, ptrArraySet_get hget₀] at hget
    split at hget
    · rename_i hid
      subst hid
      cases hget
      exact .inr ⟨snapshot, hback _ hget₀ rfl, .lock gst time he⟩
    · exact .inr ⟨snapshot', hback _ hget rfl, .same⟩
  | start i snapshot he hget₀ _ hslots =>
    rw [hslots] at hget
    exact .inr ⟨snapshot', hback _ hget rfl, .same⟩
  | receive slice snapshot he hget₀ _ _ hslots =>
    rw [hslots, ptrArraySet_get hget₀] at hget
    split at hget
    · rename_i hid
      subst hid
      cases hget
      exact .inr ⟨snapshot, hback _ hget₀ rfl, .receive slice he rfl⟩
    · exact .inr ⟨snapshot', hback _ hget rfl, .same⟩
  | last slice snapshot he hget₀ _ _ hslots =>
    rw [hslots, ptrArraySet_get hget₀] at hget
    split at hget
    · cases hget
    · exact .inr ⟨snapshot', hback _ hget rfl, .same⟩

/-! ## 2. What makes sure that a version is seen -/

/-- What is under way for the client `k` shows no version of the key older than `u`. -/
def GrShows (k : ClientId c) (key : Key) (u : ℚ) (server : ServerId c → GrServerState c) :
    (ServerId c ⊕ ClientId c) × GrEvent c → Prop
  | (_, .getResponse response) =>
    response.client = k → response.key = key → u ≤ response.updateTimestamp
  | (_, .rotxRequest request) => request.client = k → u ≤ request.dependencyTime
  | (.inl s, .getSnapshotRequestUnlocked id) =>
    ∀ snapshot, GrSnapshotFor (server s) id k snapshot → u ≤ snapshot.time
  | (_, .sliceRequest request) =>
    ∀ snapshot, GrSnapshotFor (server request.fromLpid) request.snapshotId k snapshot →
      u ≤ request.snapshotTime
  | (_, .sliceRequestLocked request) =>
    ∀ snapshot, GrSnapshotFor (server request.fromLpid) request.snapshotId k snapshot →
      u ≤ request.snapshotTime
  | (_, .sliceRequestUnlocked request) =>
    ∀ snapshot, GrSnapshotFor (server request.fromLpid) request.snapshotId k snapshot →
      u ≤ request.snapshotTime
  | (.inl s, .sliceResponse slice) =>
    ∀ snapshot, GrSnapshotFor (server s) slice.snapshotId k snapshot → slice.key = key →
      u ≤ updateTimeOf slice.read
  | (.inl s, .sliceResponseLocked slice) =>
    ∀ snapshot, GrSnapshotFor (server s) slice.snapshotId k snapshot → slice.key = key →
      u ≤ updateTimeOf slice.read
  | (.inl s, .sliceResponseUnlocked slice) =>
    ∀ snapshot, GrSnapshotFor (server s) slice.snapshotId k snapshot → slice.key = key →
      u ≤ updateTimeOf slice.read
  | (.inr k', .rotxResponse response) =>
    k' = k → ∀ read ∈ response.reads, read.key = key → u ≤ updateTimeOf read.item
  | _ => True

/-- So do the transactions of the client at a server. -/
structure GrServes (k : ClientId c) (key : Key) (u : ℚ) (st : GrServerState c) : Prop where
  rotx : ∀ id rotx, ptrArrayGet st.rotxStates id = some rotx → rotx.client = k →
    u ≤ rotx.dependencyTime
  snapshot : ∀ id snapshot, GrSnapshotFor st id k snapshot → ∀ read ∈ snapshot.reads,
    read.key = key → u ≤ updateTimeOf read.item

/-- The client `k` has seen or written a version of the key of time `u`. -/
structure GrSession (k : ClientId c) (key : Key) (u : ℚ) (M : GrMail c) : Prop where
  holds : GrHolds (lpidForKey k.server key) (M.server (lpidForKey k.server key)) key u
  client : u ≤ (M.client k).dependencyTime
  serves : ∀ s, GrServes k key u (M.server s)
  shows : ∀ x ∈ M.events, GrShows k key u M.server x

section Step

variable {k : ClientId c} {key : Key} {u : ℚ} {server server' : ServerId c → GrServerState c}

theorem grShows_other {x : (ServerId c ⊕ ClientId c) × GrEvent c} (h : x.2.Other) :
    GrShows k key u server x := by
  obtain ⟨p, e⟩ := x
  cases e <;> first | exact h.elim | (cases p <;> trivial)

theorem grUpdateGst_shows (s : ServerId c) (st : GrServerState c) (gst : ℚ) :
    ∀ o ∈ (grUpdateGst st gst).2, GrShows k key u server (o.place s, o.event) := by
  intro o ho
  obtain ⟨id, rotx, -, rfl⟩ := grUpdateGst_out ho
  trivial

/-- The answer to a GET of the client shows the version, or a later one. -/
theorem grGetAnswer_shows {s : ServerId c} {st : GrServerState c} {getState : GrGetState c}
    (hd : ∀ key, Descending (st.store key))
    (hkey : lpidForKey getState.client.server getState.key = s)
    (hholds : lpidForKey k.server key = s → GrHolds s st key u) :
    GrShows k key u server
      ((grSend getState.destination (.getResponse (grGetAnswer s st getState))).place s,
        (grSend getState.destination (.getResponse (grGetAnswer s st getState))).event) := by
  have hshows : getState.client = k → getState.key = key →
      u ≤ updateTimeOf (grGetValue s st getState.key) := by
    rintro rfl rfl
    exact (hholds hkey).le_find (hd _) fun item _ hv => hv
  cases getState.destination <;> exact hshows

/-- The transactions of a server go on as before. -/
theorem GrWork.serves {s : ServerId c} {st : GrServerState c} {e : GrEvent c} {r : GrOutcome c}
    (hw : GrWork s st e r) (hst : GrFormed s st)
    (hlive : ∀ id snapshot, ptrArrayGet st.snapshotStates id = some snapshot →
      ∃ rotx, ptrArrayGet st.rotxStates snapshot.requestId = some rotx ∧ rotx.waitingGst = false)
    (hself : ∀ id snapshot, GrSnapshotFor st id k snapshot →
      GrSnapshotFor (server s) id k snapshot)
    (hserves : GrServes k key u st) (he : GrShows k key u server (.inl s, e)) :
    GrServes k key u r.state where
  rotx id rotx' hget hk := by
    rcases hw.rotx_back hst hget with
      ⟨rotx, hrotx, hclient, hdep⟩ | ⟨request, rfl, -, hclient, hdep⟩
    · exact hdep ▸ hserves.rotx id rotx hrotx (hclient.symm.trans hk)
    · exact hdep ▸ he (hclient.symm.trans hk)
  snapshot id snapshot' hfor := by
    rcases hw.snapshot_back hst hlive hfor with
      ⟨request, -, -, rfl⟩ | ⟨snapshot, hfor₀, hbecame⟩
    · exact List.forall_mem_nil _
    · have hreads := hserves.snapshot id snapshot hfor₀
      cases hbecame with
      | same => exact hreads
      | lock => exact hreads
      | receive slice he' hid =>
        subst hid
        refine List.forall_mem_cons.mpr ⟨?_, hreads⟩
        rcases he' with rfl | rfl <;> exact he snapshot (hself _ _ hfor₀)

/-- **What a handler sends shows the version, or a later one**, if what it was told does. -/
theorem GrWork.shows {s : ServerId c} {t : ℚ} {st : GrServerState c} {e : GrEvent c}
    {r : GrOutcome c} (hst : st = { server s with now := t, clock := c.clock s t })
    (hw : GrWork s st e r) (hformed : ∀ s, GrFormed s (server s)) (haddr : GrAddressed (.inl s, e))
    (hlive : ∀ id snapshot, ptrArrayGet st.snapshotStates id = some snapshot →
      ∃ rotx, ptrArrayGet st.rotxStates snapshot.requestId = some rotx ∧ rotx.waitingGst = false)
    (hserver' : server' = Function.update server s r.state)
    (hd : ∀ key, Descending (st.store key)) (hkeeps : GrKeeps server s (server s))
    (htrue : GrTrue server (.inl s, e))
    (hholds : GrHolds (lpidForKey k.server key) (server (lpidForKey k.server key)) key u)
    (hserves : GrServes k key u (server s)) (he : GrShows k key u server (.inl s, e)) :
    ∀ x ∈ r.placed s, GrShows k key u server' x := by
  have hformed' : GrFormed s st := by
    rw [hst]
    exact (hformed s).of_eq rfl rfl rfl rfl
  have hheld : lpidForKey k.server key = s → GrHolds s st key u := by
    intro hs
    rw [hs] at hholds
    rw [hst]
    exact hholds
  -- a snapshot for the client is none that was just requested, unless the event says so
  have hback : (∀ request, e ≠ .getSnapshotRequest request) → ∀ s₁ id snapshot',
      GrSnapshotFor (server' s₁) id k snapshot' →
        ∃ snapshot, GrSnapshotFor (server s₁) id k snapshot := by
    intro hne s₁ id snapshot' hfor
    rw [hserver'] at hfor
    by_cases hs : s₁ = s
    · subst hs
      rw [Function.update_self] at hfor
      rcases hw.snapshot_back hformed' hlive hfor with ⟨request, rfl, -⟩ | ⟨snapshot, hfor, -⟩
      · exact absurd rfl (hne request)
      · rw [hst] at hfor
        exact ⟨snapshot, hfor⟩
    · rw [Function.update_of_ne hs] at hfor
      exact ⟨snapshot', hfor⟩
  cases hw with
  | other _ _ _ _ _ hnew => exact fun x hx => grShows_other (hnew x hx)
  | wake _ gst others _ hplaced hothers =>
    rw [hplaced]
    intro x hx
    rcases List.mem_append.mp hx with hx | hx
    · obtain ⟨o, ho, rfl⟩ := List.mem_map.mp hx
      exact grUpdateGst_shows s st gst o ho
    · exact grShows_other (hothers x hx)
  | getForward _ hcont =>
    refine Outcome.forall_placed (List.forall_mem_singleton.mpr trivial) fun e he => ?_
    exact grShows_other (x := (.inl s, e)) (hcont e he)
  | getOpen =>
    refine Outcome.forall_placed (List.forall_mem_nil _) ?_
    rintro _ ⟨⟩
    trivial
  | @getServe request hkey =>
    have hhome : lpidForKey request.client.server request.key = s := lpidForKey_home haddr hkey
    refine Outcome.forall_placed (List.forall_mem_singleton.mpr ?_) (by rintro _ ⟨⟩)
    exact grGetAnswer_shows hd hhome hheld
  | getLocked =>
    refine Outcome.forall_placed (grUpdateGst_shows s st _) ?_
    rintro _ ⟨⟩
    trivial
  | @getUnlocked id getState hget hkey =>
    refine Outcome.forall_placed (List.forall_mem_singleton.mpr ?_) (by rintro _ ⟨⟩)
    exact grGetAnswer_shows hd (hformed'.get id getState hget).1 hheld
  | getResponse =>
    exact Outcome.forall_placed (List.forall_mem_singleton.mpr he) (by rintro _ ⟨⟩)
  | putForward =>
    exact Outcome.forall_placed (List.forall_mem_singleton.mpr trivial) (by rintro _ ⟨⟩)
  | putDefer =>
    exact Outcome.forall_placed (List.forall_mem_singleton.mpr trivial) (by rintro _ ⟨⟩)
  | putOpen =>
    refine Outcome.forall_placed (List.forall_mem_nil _) ?_
    rintro _ ⟨⟩
    trivial
  | putLocked =>
    refine Outcome.forall_placed (List.forall_mem_nil _) ?_
    rintro _ ⟨⟩
    trivial
  | @putUnlocked id putState stamp hput hstamp =>
    refine Outcome.forall_placed (List.forall_mem_cons.mpr ⟨?_, fun o ho => ?_⟩) (by rintro _ ⟨⟩)
    · cases putState.destination <;> trivial
    · split at ho
      · cases ho
      · obtain ⟨s', -, rfl⟩ := List.mem_map.mp ho
        trivial
  | putResponse =>
    exact Outcome.forall_placed (List.forall_mem_singleton.mpr trivial) (by rintro _ ⟨⟩)
  | rotxRequest =>
    refine Outcome.forall_placed (fun o ho => ?_) (by rintro _ ⟨⟩)
    dsimp only at ho
    split at ho
    · cases ho
    · obtain rfl := List.mem_singleton.mp ho
      trivial
  | snapshotRequest =>
    refine Outcome.forall_placed (List.forall_mem_nil _) ?_
    rintro _ ⟨⟩
    trivial
  | @snapshotLocked id snapshot hget =>
    refine Outcome.forall_placed (grUpdateGst_shows s st _) ?_
    rintro _ ⟨⟩
    -- the transaction does not wait, so the stable time has reached its dependencies
    intro snapshot' hfor
    rw [hserver', Function.update_self] at hfor
    obtain ⟨hget', rotx', hrotx', hk⟩ := hfor
    dsimp only at hget' hrotx'
    have hslot : ptrArrayGet (grUpdateGst st snapshot.gst).1.snapshotStates id = some snapshot := by
      rw [grUpdateGst_snapshotStates]
      exact hget
    rw [ptrArraySet_get hslot, if_pos rfl] at hget'
    cases hget'
    obtain ⟨rotx₀, hrotx₀, hidle⟩ := hlive id snapshot hget
    obtain ⟨rotx, hrotx, hor⟩ := grUpdateGst_rotx hrotx'
    obtain rfl := Option.some.inj (hrotx₀.symm.trans hrotx)
    have hsame : rotx'.client = rotx₀.client := by rcases hor with rfl | ⟨rfl, -⟩ <;> rfl
    have hrotx₁ := hrotx₀
    rw [hst] at hrotx₁
    have hle := hserves.rotx _ rotx₀ hrotx₁ (hsame.symm.trans hk)
    have hgst : rotx₀.dependencyTime ≤ st.gst := by
      rw [hst]
      exact hkeeps.rotx _ rotx₀ hrotx₁ hidle
    show u ≤ (grUpdateGst st snapshot.gst).1.gst
    rw [grUpdateGst_gst]
    exact hle.trans (hgst.trans (le_max_left _ _))
  | @snapshotUnlocked id snapshot hget =>
    refine Outcome.forall_placed (fun o ho => ?_) (by rintro _ ⟨⟩)
    obtain ⟨i, hi, rfl⟩ := List.mem_mapIdx.mp ho
    intro snapshot' hfor
    rw [hserver', Function.update_self] at hfor
    obtain rfl := Option.some.inj (hget.symm.trans hfor.1)
    rw [hst] at hfor
    exact he snapshot hfor
  | sliceRequest =>
    refine Outcome.forall_placed (List.forall_mem_nil _) ?_
    rintro _ ⟨⟩
    intro snapshot' hfor
    obtain ⟨snapshot, hfor⟩ := hback (by rintro _ ⟨⟩) _ _ _ hfor
    exact he snapshot hfor
  | sliceLocked =>
    refine Outcome.forall_placed (grUpdateGst_shows s st _) ?_
    rintro _ ⟨⟩
    intro snapshot' hfor
    obtain ⟨snapshot, hfor⟩ := hback (by rintro _ ⟨⟩) _ _ _ hfor
    exact he snapshot hfor
  | @sliceServe _ request he' hkey =>
    refine Outcome.forall_placed (List.forall_mem_singleton.mpr ?_) (by rintro _ ⟨⟩)
    intro snapshot' hfor hk
    obtain ⟨snapshot, hfor⟩ := hback (by rcases he' with rfl | ⟨rfl, -⟩ <;> rintro _ ⟨⟩) _ _ _ hfor
    have hle : u ≤ request.snapshotTime := by
      rcases he' with rfl | ⟨rfl, -⟩ <;> exact he snapshot hfor
    have hhome : lpidForKey request.fromLpid request.key = s := by
      rcases he' with rfl | ⟨rfl, -⟩ <;> exact haddr
    -- the client is in the data center of the server that asks
    obtain ⟨-, rotx, hrotx, rfl⟩ := hfor
    have hdc : lpidForKey rotx.client.server key = s := by
      rw [← hhome, ← hk]
      exact Prod.ext ((hformed request.fromLpid).rotx _ _ hrotx).2.2 rfl
    subst hk
    refine (hheld hdc).le_find (hd _) fun item hu _ => ?_
    exact decide_eq_true (hu ▸ hle)
  | sliceResponse =>
    refine Outcome.forall_placed (List.forall_mem_nil _) ?_
    rintro _ ⟨⟩
    intro snapshot' hfor
    obtain ⟨snapshot, hfor⟩ := hback (by rintro _ ⟨⟩) _ _ _ hfor
    exact he snapshot hfor
  | receiveLocked =>
    refine Outcome.forall_placed (grUpdateGst_shows s st _) ?_
    rintro _ ⟨⟩
    intro snapshot' hfor
    obtain ⟨snapshot, hfor⟩ := hback (by rintro _ ⟨⟩) _ _ _ hfor
    exact he snapshot hfor
  | receive => exact Outcome.forall_placed (List.forall_mem_nil _) (by rintro _ ⟨⟩)
  | @receiveLast _ slice snapshot rotx he' hget _ hrotx =>
    refine Outcome.forall_placed (List.forall_mem_singleton.mpr ?_) (by rintro _ ⟨⟩)
    rintro rfl
    have hfor : GrSnapshotFor (server s) slice.snapshotId rotx.client snapshot := by
      rw [hst] at hget hrotx
      exact ⟨hget, rotx, hrotx, rfl⟩
    refine List.forall_mem_cons.mpr ⟨?_, hserves.snapshot _ snapshot hfor⟩
    rcases he' with rfl | rfl <;> exact he snapshot hfor
  | abroad _ hget hclient => exact absurd (hformed'.snapshot _ _ hget) hclient

end Step

/-! ## 3. A step keeps it -/

section Runs

variable {setup : Setup c (GrEvent c)} {Q : GrAct c → Prop} {M : GrMail c} {h : List (GrAct c)}
  {k : ClientId c} {key : Key} {u : ℚ}

/-- An event that is not handled refers to the same snapshot as before. -/
theorem gr_snapshot_kept (hr : Mail.Run (grProgram c) Q (grWorld setup).config.mail M h)
    {s : ServerId c} {t : ℚ} {e : GrEvent c} {r : GrOutcome c}
    {mail : Multiset ((ServerId c ⊕ ClientId c) × GrEvent c)}
    (hev : M.events = (.inl s, e) ::ₘ mail)
    (hserve : grServerProcessEvent s t (M.server s) e = some r)
    {s₁ : ServerId c} {id : ℕ} {x : (ServerId c ⊕ ClientId c) × GrEvent c} (hx : x ∈ mail)
    (hrefs : 1 ≤ grSlots x (.start s₁ id) + grSlots x (.slice s₁ id))
    {snapshot' : GrSnapshotState c}
    (hfor : GrSnapshotFor (Function.update M.server s r.state s₁) id k snapshot') :
    ∃ snapshot, GrSnapshotFor (M.server s₁) id k snapshot ∧ snapshot'.time = snapshot.time := by
  by_cases hs : s₁ = s
  · subst hs
    rw [Function.update_self] at hfor
    have hwork := grProcessEvent_work (grServerProcessEvent_some hserve)
    have hopen := gr_open hr s₁ id
    obtain ⟨mail, rfl⟩ := Multiset.exists_cons_of_mem hx
    simp only [grStarts, grSlices, hev, Multiset.map_cons, Multiset.sum_cons] at hopen
    have hstarts := sum_grSlots_nonneg mail (.start s₁ id)
    have hslices := sum_grSlots_nonneg mail (.slice s₁ id)
    have he := grSlots_nonneg (.inl s₁, e) (.start s₁ id)
    have he' := grSlots_nonneg (.inl s₁, e) (.slice s₁ id)
    have hxs := grSlots_nonneg x (.start s₁ id)
    have hxs' := grSlots_nonneg x (.slice s₁ id)
    have hback := hwork.snapshot_back (((gr_formed hr).1 s₁).of_eq rfl rfl rfl rfl)
      (fun id snapshot hget => (gr_snapshot_rotx hr hget).1) hfor
    rcases hback with ⟨request, rfl, rfl, -⟩ | ⟨snapshot, hfor₀, hbecame⟩
    · -- the slot is free, so nothing refers to it
      have hfree := ptrArrayFree_get (M.server s₁).snapshotStates
      dsimp only at hopen hxs hxs' hrefs hstarts hslices he he'
      rw [hfree] at hopen
      obtain ⟨h1, h2⟩ := hopen
      omega
    · refine ⟨snapshot, hfor₀, ?_⟩
      cases hbecame with
      | same => rfl
      | receive => rfl
      | lock gst time heq =>
        subst heq
        have hget : ptrArrayGet (M.server s₁).snapshotStates id = some snapshot := hfor₀.1
        have hone : grSlots (.inl s₁, .getSnapshotRequestLocked id) (.start s₁ id) = 1 :=
          GrSlot.one_self _
        rw [hget] at hopen
        rcases hopen with ⟨h1, h2, -⟩ | ⟨h1, -⟩ <;> omega
  · rw [Function.update_of_ne hs] at hfor
    exact ⟨snapshot', hfor, rfl⟩

/-- What is not handled shows the version as before. -/
theorem gr_shows_kept (hr : Mail.Run (grProgram c) Q (grWorld setup).config.mail M h)
    {s : ServerId c} {t : ℚ} {e : GrEvent c} {r : GrOutcome c}
    {mail : Multiset ((ServerId c ⊕ ClientId c) × GrEvent c)}
    (hev : M.events = (.inl s, e) ::ₘ mail)
    (hserve : grServerProcessEvent s t (M.server s) e = some r)
    {x : (ServerId c ⊕ ClientId c) × GrEvent c} (hx : x ∈ mail)
    (hshows : GrShows k key u M.server x) :
    GrShows k key u (Function.update M.server s r.state) x := by
  have hkept : ∀ {s₁ id} {P : GrSnapshotState c → Prop},
      1 ≤ grSlots x (.start s₁ id) + grSlots x (.slice s₁ id) →
      (∀ snapshot snapshot' : GrSnapshotState c, snapshot'.time = snapshot.time → P snapshot →
        P snapshot') →
      (∀ snapshot, GrSnapshotFor (M.server s₁) id k snapshot → P snapshot) →
      ∀ snapshot, GrSnapshotFor (Function.update M.server s r.state s₁) id k snapshot →
        P snapshot := by
    intro s₁ id P hrefs hP hold snapshot' hfor
    obtain ⟨snapshot, hfor, htime⟩ := gr_snapshot_kept hr hev hserve hx hrefs hfor
    exact hP snapshot snapshot' htime (hold snapshot hfor)
  obtain ⟨p, e'⟩ := x
  cases e' with
  | getSnapshotRequestUnlocked id =>
    cases p with
    | inr => trivial
    | inl s₁ =>
      exact hkept (by simp [grSlots]) (fun _ _ htime hle => hle.trans_eq htime.symm) hshows
  | sliceRequest request =>
    cases p <;> exact hkept (by simp [grSlots]) (fun _ _ _ hle => hle) hshows
  | sliceRequestLocked request =>
    cases p <;> exact hkept (by simp [grSlots]) (fun _ _ _ hle => hle) hshows
  | sliceRequestUnlocked request =>
    cases p <;> exact hkept (by simp [grSlots]) (fun _ _ _ hle => hle) hshows
  | sliceResponse slice =>
    cases p with
    | inr => trivial
    | inl s₁ => exact hkept (by simp [grSlots]) (fun _ _ _ hle => hle) hshows
  | sliceResponseLocked slice =>
    cases p with
    | inr => trivial
    | inl s₁ => exact hkept (by simp [grSlots]) (fun _ _ _ hle => hle) hshows
  | sliceResponseUnlocked slice =>
    cases p with
    | inr => trivial
    | inl s₁ => exact hkept (by simp [grSlots]) (fun _ _ _ hle => hle) hshows
  | getResponse response => cases p <;> exact hshows
  | rotxRequest request => cases p <;> exact hshows
  | rotxResponse response => cases p <;> exact hshows
  | _ => cases p <;> trivial

/-- A client depends on what it is told. -/
theorem GrLearn.dependencyTime {st st' : GrClientState c} {e : GrEvent c}
    (hl : GrLearn k st e st') :
    st.dependencyTime ≤ st'.dependencyTime := by
  have hupdate : ∀ gst time, st.dependencyTime ≤ (grUpdateTimes st gst time).dependencyTime := by
    intro gst time
    simp only [grUpdateTimes]
    split
    · rename_i hlt
      exact hlt.le
    · exact le_rfl
  cases hl with
  | get response => exact hupdate response.gst _
  | put response => exact hupdate 0 _
  | rotx response => exact hupdate response.gst _
  | tick => exact le_rfl

/-- The requests of a client carry what it depends on. -/
theorem GrAsk.shows {k' : ClientId c} {st : GrClientState c} {server : ServerId c → GrServerState c}
    {x : (ServerId c ⊕ ClientId c) × GrEvent c} (ha : GrAsk k' st x)
    (hu : k' = k → u ≤ st.dependencyTime) : GrShows k key u server x := by
  cases ha with
  | rotx keys => exact hu
  | _ => trivial

/-- **A session goes on.** -/
theorem GrSession.step {M' : GrMail c} {a : Option (GrAct c)} (hs : GrSession k key u M)
    (hr : Mail.Run (grProgram c) Q (grWorld setup).config.mail M h)
    (hd : ∀ s key, Descending ((M.server s).store key)) (hstep : Mail.Step (grProgram c) M a M') :
    GrSession k key u M' := by
  cases hstep with
  | @serve s t e r mail hev ht hserve =>
    have hmem : (.inl s, e) ∈ M.events := by rw [hev]; exact Multiset.mem_cons_self _ _
    have hformed := gr_formed hr
    have htrue := gr_true hr
    have hwork := grProcessEvent_work (grServerProcessEvent_some hserve)
    have hst : GrFormed s { M.server s with now := t, clock := c.clock s t } :=
      (hformed.1 s).of_eq rfl rfl rfl rfl
    have hlive : ∀ id snapshot, ptrArrayGet (M.server s).snapshotStates id = some snapshot →
        ∃ rotx, ptrArrayGet (M.server s).rotxStates snapshot.requestId = some rotx ∧
          rotx.waitingGst = false :=
      fun id snapshot hget => (gr_snapshot_rotx hr hget).1
    refine ⟨?_, hs.client, fun s' => ?_, fun x hx => ?_⟩
    · dsimp only
      by_cases ho : lpidForKey k.server key = s
      · have hholds := hs.holds
        rw [ho] at hholds ⊢
        rw [Function.update_self]
        exact hholds.grow (grServerProcessEvent_grows hserve)
      · rw [Function.update_of_ne ho]
        exact hs.holds
    · dsimp only
      by_cases hs' : s' = s
      · subst hs'
        rw [Function.update_self]
        exact hwork.serves hst hlive (fun _ _ hfor => hfor)
          ⟨(hs.serves s').rotx, (hs.serves s').snapshot⟩ (hs.shows _ hmem)
      · rw [Function.update_of_ne hs']
        exact hs.serves s'
    · rcases Multiset.mem_add.mp hx with hx | hx
      · have hold : x ∈ M.events := by rw [hev]; exact Multiset.mem_cons_of_mem hx
        exact gr_shows_kept hr hev hserve hx (hs.shows x hold)
      · exact hwork.shows rfl hformed.1 (hformed.2 _ hmem) hlive rfl (hd s) (htrue.1 s)
          (htrue.2 _ hmem) hs.holds (hs.serves s) (hs.shows _ hmem) x (Multiset.mem_coe.mp hx)
  | @client k' t d e r mail hev ht hclient =>
    obtain ⟨st', hlearn, ⟨requestTime, hr₁⟩, hasks⟩ := grClientProcessEvent_asks hclient
    have hdep : k' = k → u ≤ r.1.dependencyTime := by
      rintro rfl
      rw [hr₁]
      exact hs.client.trans hlearn.dependencyTime
    refine ⟨hs.holds, ?_, hs.serves, fun x hx => ?_⟩
    · dsimp only
      by_cases hk : k = k'
      · subst hk
        rw [Function.update_self]
        exact hdep rfl
      · rw [Function.update_of_ne hk]
        exact hs.client
    · rcases Multiset.mem_add.mp hx with hx | hx
      · exact hs.shows x (by rw [hev]; exact Multiset.mem_cons_of_mem hx)
      · exact (hasks x (Multiset.mem_coe.mp hx)).shows hdep
  | wait => exact ⟨hs.holds, hs.client, hs.serves, hs.shows⟩

/-! ## 4. An answer starts it -/

/-- Where nothing is under way for a client, nothing shows it an older version. -/
theorem GrAlone.shows {server : ServerId c → GrServerState c}
    {mail : Multiset ((ServerId c ⊕ ClientId c) × GrEvent c)} (ha : GrAlone server mail k)
    {x : (ServerId c ⊕ ClientId c) × GrEvent c} (hx : x ∈ mail) (haddr : GrAddressed x) :
    GrShows k key u server x := by
  have hrefs := ha.events x hx
  have hnone : ∀ s id snapshot, ¬GrSnapshotFor (server s) id k snapshot := by
    rintro s id snapshot ⟨-, rotx, hrotx, hk⟩
    exact ha.rotx s _ rotx hrotx hk
  have hself : (GrRef.client k).one (.client k) ≠ 0 := by simp
  obtain ⟨p, e⟩ := x
  cases e with
  | getResponse response =>
    cases p with
    | inl => rintro rfl; exact absurd hrefs hself
    | inr k' =>
      obtain rfl : response.client = k' := haddr
      rintro rfl
      exact absurd hrefs hself
  | rotxRequest request => cases p <;> (rintro rfl; exact absurd hrefs hself)
  | rotxResponse response =>
    cases p with
    | inl => trivial
    | inr k' => rintro rfl; exact absurd hrefs hself
  | _ =>
    cases p <;> first | trivial | exact fun snapshot hfor => absurd hfor (hnone _ _ _)

theorem GrAlone.serves {server : ServerId c → GrServerState c}
    {mail : Multiset ((ServerId c ⊕ ClientId c) × GrEvent c)} (ha : GrAlone server mail k)
    (s : ServerId c) : GrServes k key u (server s) where
  rotx id rotx hrotx hk := absurd hk (ha.rotx s id rotx hrotx)
  snapshot _ _ hfor := by
    obtain ⟨-, rotx, hrotx, hk⟩ := hfor
    exact absurd hk (ha.rotx s _ rotx hrotx)

/-- **A session starts** when a client gets an answer and depends on a version that its server
holds. -/
theorem GrSession.start (hr : Mail.Run (grProgram c) Q (grWorld setup).config.mail M h) {t : ℚ}
    {decision : Decision} {e : GrEvent c} {r : GrClientState c × List (GrOut c)}
    {mail : Multiset ((ServerId c ⊕ ClientId c) × GrEvent c)}
    (hev : M.events = (.inr k, e) ::ₘ mail)
    (hclient : grClientProcessEvent k t decision (M.client k) e = some r)
    (he : grRefs (.inr k, e) (.client k) = 1)
    (hholds : GrHolds (lpidForKey k.server key) (M.server (lpidForKey k.server key)) key u)
    (hu : u ≤ r.1.dependencyTime) :
    GrSession k key u ⟨t, M.server, Function.update M.client k r.1,
      mail + ((placedOfClient k r.2 : List _) : Multiset _)⟩ := by
  have halone := gr_answered hr hev he
  obtain ⟨st', -, -, hasks⟩ := grClientProcessEvent_asks hclient
  refine ⟨hholds, ?_, halone.serves, fun x hx => ?_⟩
  · dsimp only
    rwa [Function.update_self]
  · rcases Multiset.mem_add.mp hx with hx | hx
    · refine halone.shows hx ((gr_formed hr).2 x ?_)
      rw [hev]
      exact Multiset.mem_cons_of_mem hx
    · exact (hasks x (Multiset.mem_coe.mp hx)).shows fun _ => hu

/-! ## 5. What a client has seen -/

/-- The keys of an answer, with the times of the versions that it returns. -/
def GrEvent.returned : GrEvent c → List (Key × ℚ)
  | .getResponse response => [(response.key, response.updateTimestamp)]
  | .rotxResponse response => response.reads.map fun read => (read.key, updateTimeOf read.item)
  | _ => []

/-- What a client is returned in a step. -/
def grReturned (k : ClientId c) : GrAct c → List (Key × ℚ)
  | .client k' _ e _ _ => if k' = k then e.returned else []
  | .server _ _ _ _ _ => []

/-- The client `k` has been returned a version, or the answer to a PUT that was not discarded. -/
inductive GrSaw (k : ClientId c) : List (GrAct c) → Key → ℚ → Prop
  | read {h : List (GrAct c)} {a : GrAct c} {key : Key} {u : ℚ} (ha : (key, u) ∈ grReturned k a) :
      GrSaw k (a :: h) key u
  | wrote {h : List (GrAct c)} {t : ℚ} {response : GrPutResponse c} {st : GrClientState c}
      {r : GrClientState c × List (GrOut c)} {item : GrItem c}
      (ha : GrPut h (lpidForKey k.server response.written.key) response.written.key item)
      (hu : item.updateTime = response.updateTimestamp) :
      GrSaw k (.client k t (.putResponse response) st r :: h) response.written.key
        response.updateTimestamp
  | later {h : List (GrAct c)} {a : GrAct c} {key : Key} {u : ℚ} (hs : GrSaw k h key u) :
      GrSaw k (a :: h) key u

/-- A client depends on the answer it gets. -/
theorem grUpdateTimes_le (st : GrClientState c) (gst time : ℚ) :
    time ≤ (grUpdateTimes st gst time).dependencyTime := by
  simp only [grUpdateTimes]
  split
  · exact le_rfl
  · rename_i hle
    exact not_lt.mp hle

theorem GrSession.of_returned {M' : GrMail c} {a : GrAct c}
    (hr : Mail.Run (grProgram c) Q (grWorld setup).config.mail M h)
    (hstep : Mail.Step (grProgram c) M (some a) M') (hret : (key, u) ∈ grReturned k a) :
    GrSession k key u M' := by
  cases hstep with
  | serve => cases hret
  | @client k' t d e r mail hev ht hclient =>
    simp only [grReturned] at hret
    split at hret
    · rename_i hk
      subst hk
      have hmem : (.inr k', e) ∈ M.events := by rw [hev]; exact Multiset.mem_cons_self _ _
      have htrue := (gr_true hr).2 _ hmem
      have haddr := (gr_formed hr).2 _ hmem
      obtain ⟨st', hlearn, ⟨requestTime, hr₁⟩, -⟩ := grClientProcessEvent_asks hclient
      have hdep : r.1.dependencyTime = st'.dependencyTime := by rw [hr₁]
      cases hlearn with
      | get response =>
        cases List.mem_singleton.mp hret
        obtain rfl : response.client = k' := haddr
        refine GrSession.start hr hev hclient (GrRef.one_self _) htrue ?_
        exact hdep ▸ grUpdateTimes_le (M.client response.client) response.gst _
      | put => cases hret
      | rotx response =>
        obtain ⟨read, hread, heq⟩ := List.mem_map.mp hret
        cases heq
        obtain ⟨hle, hholds⟩ := htrue read hread
        refine GrSession.start hr hev hclient (GrRef.one_self _) hholds ?_
        exact hle.trans (hdep ▸ grUpdateTimes_le (M.client k') response.gst _)
      | tick => cases hret
    · cases hret

theorem GrSession.of_written {M' : GrMail c} {t : ℚ} {response : GrPutResponse c}
    {st : GrClientState c} {r : GrClientState c × List (GrOut c)}
    (hr : Mail.Run (grProgram c) Q (grWorld setup).config.mail M h)
    (hstep : Mail.Step (grProgram c) M (some (.client k t (.putResponse response) st r)) M')
    (hholds : GrHolds (lpidForKey k.server key) (M.server (lpidForKey k.server key)) key
      response.updateTimestamp) :
    GrSession k key response.updateTimestamp M' := by
  cases hstep with
  | client hev ht hclient =>
    obtain ⟨st', hlearn, ⟨requestTime, hr₁⟩, -⟩ := grClientProcessEvent_asks hclient
    cases hlearn with
    | put =>
      refine GrSession.start hr hev hclient (GrRef.one_self _) hholds ?_
      rw [hr₁]
      exact grUpdateTimes_le (M.client k) 0 _

/-- What a client is returned in a session is not older. -/
theorem GrSession.le_returned {M' : GrMail c} {a : GrAct c} (hs : GrSession k key u M)
    (hstep : Mail.Step (grProgram c) M (some a) M')
    (hr : Mail.Run (grProgram c) Q (grWorld setup).config.mail M h) {u' : ℚ}
    (hret : (key, u') ∈ grReturned k a) : u ≤ u' := by
  cases hstep with
  | serve => cases hret
  | @client k' t d e r mail hev ht hclient =>
    simp only [grReturned] at hret
    split at hret
    · rename_i hk
      subst hk
      have hmem : (.inr k', e) ∈ M.events := by rw [hev]; exact Multiset.mem_cons_self _ _
      have hshows := hs.shows _ hmem
      have haddr := (gr_formed hr).2 _ hmem
      cases e with
      | getResponse response =>
        cases List.mem_singleton.mp hret
        exact hshows haddr rfl
      | rotxResponse response =>
        obtain ⟨read, hread, heq⟩ := List.mem_map.mp hret
        cases heq
        exact hshows rfl read hread rfl
      | _ => cases hret
    · cases hret

end Runs

section Runs

variable {setup : Setup c (GrEvent c)} {C : GrCond c}
  {A : Config (ServerId c) (ClientId c) (GrEvent c) (GrServerState c) (GrClientState c)}
  {h : List (GrAct c)} {k : ClientId c}

/-- **A client that has seen or written a version is in a session.** -/
theorem GrSaw.session (hr : Run (grProgram c) C (grWorld setup).config A h) {key : Key} {u : ℚ}
    (hsaw : GrSaw k h key u) : GrSession k key u A.mail := by
  induction hr with
  | nil => cases hsaw
  | @cons A A' h a hrun hstep hc ih =>
    have hmail := hrun.mail (Q := fun _ => True) fun _ _ => trivial
    have hlater : GrSaw k h key u → GrSession k key u A'.mail := fun hsaw =>
      (ih hsaw).step hmail (gr_descending hrun) hstep.mail
    cases a with
    | none => exact hlater hsaw
    | some a =>
      cases hsaw with
      | read ha => exact GrSession.of_returned hmail hstep.mail ha
      | @wrote _ t response st r item hacc hu =>
        refine GrSession.of_written hmail hstep.mail ?_
        obtain ⟨t₀, id, st₀, o, hact, hput⟩ := hacc
        have haccepted : (grReplicating c).Accepted h (lpidForKey k.server response.written.key)
            (response.written.key, item) := ⟨t₀, _, st₀, o, id, hact, rfl, hput⟩
        obtain ⟨hmem, hself⟩ := haccepted.mem hrun
        exact .inr ⟨item, hmem, hu, decide_eq_true (.inl hself)⟩
      | later hsaw => exact hlater hsaw

/-- **What a client is returned is not older than what it has seen or written.** -/
theorem gr_sees_again (hr : Run (grProgram c) C (grWorld setup).config A h) {h₁ h₂ : List (GrAct c)}
    {a : GrAct c} (hh : h = h₂ ++ a :: h₁) {key : Key} {u u' : ℚ} (hsaw : GrSaw k h₁ key u)
    (hret : (key, u') ∈ grReturned k a) : u ≤ u' := by
  induction hr generalizing h₂ with
  | nil => simp at hh
  | @cons A A' h b hrun hstep hc ih =>
    cases b with
    | none => exact ih hh
    | some b =>
      cases h₂ with
      | nil =>
        obtain ⟨rfl, rfl⟩ := List.cons.inj hh
        have hmail := hrun.mail (Q := fun _ => True) fun _ _ => trivial
        exact (hsaw.session hrun).le_returned hstep.mail hmail hret
      | cons b' h₂ => exact ih (List.cons.inj hh).2

end Runs

end CCSim
