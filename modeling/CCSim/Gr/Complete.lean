/-
# What the reads of `gr` miss

A server answers a GET with the latest version that is not later than its stable time, or is its
own; and a slice with the latest one that is not later than the time of the snapshot, which its
stable time has reached.  The stable time is a promise (`gr_promised`): the version vectors of the
data center have come that far.  So such a read misses no version that is not later, of any replica,
not even one that is accepted after the read (`gr_get_complete`, `gr_slice_complete`), but for those
that the server has discarded.
-/
import CCSim.Gr.Gather
import CCSim.Gr.StableTime
import CCSim.Reads
import CCSim.Replicas.Retention
import CCSim.MessageOrder

namespace CCSim

variable {c : Cluster}

/-! ## 1. The conditions -/

/-- The conditions under which a version vector does not go back, and the stable time is a promise.
-/
def GrStable : GrCond c := fun v a => GrInTime v a ∧ GrFirstEntryHeld v.past a

theorem grStable_enforces : (grReplicating c).Enforces GrStable inTime :=
  Replicating.enforces (fun _ _ _ h => h.1.1.1) (fun _ _ _ h => h.1.1.2) (fun _ _ _ h => h.1.2.1)
    (fun _ _ _ h => h.1.2.2) False.elim False.elim

/-- A PUT and a clock tick write the own entry of the version vector. -/
theorem gr_vectors (setup : Setup c (GrEvent c)) :
    (grReplicating c).Vectors GrServerState.versionVector (grWorld setup).config where
  view _ _ _ hj := if_neg hj
  own {s t st e r} h hu hb := by
    have hr := grServerProcessEvent_some h
    simp only [grProcessEvent_vector hr]
    unfold grVectorAfter
    split
    · exact .inr ⟨Function.update_self _ _ _, rfl, ((grReplicating c).put h rfl).1⟩
    · split
      · rename_i hle
        rw [grProcessEvent, grProcessClockTickLocked, if_pos hle] at hr
        cases hr
        exact .inr ⟨Function.update_self _ _ _, rfl, rfl⟩
      · exact .inl rfl
    · exact .inl (Function.update_of_ne (hu _ rfl).symm _ _)
    · split
      · exact .inl (Function.update_of_ne (hb _ _ rfl).symm _ _)
      · exact .inl rfl
    · exact .inl rfl
  start s := clock_pos s setup.start_pos
  start_nonneg _ _ := le_rfl

/-! ## 2. Slices -/

/-- A slice is read where the stable time has reached the time of its snapshot. -/
theorem GrWork.sliceServed {s s' : ServerId c} {st : GrServerState c} {e : GrEvent c}
    {r : GrOutcome c} {slice : GrSliceResponse c} (hw : GrWork s st e r) (hformed : GrFormed s st)
    (hstable : ∀ request, e = .sliceRequestUnlocked request → request.snapshotTime ≤ st.gst)
    (ho : .toServer s' (.sliceResponse slice) ∈ r.outs) :
    slice.snapshotTime ≤ st.gst ∧ slice.updateTime = updateTimeOf
      (getValueAt st.store slice.key (grIsValueVisibleSnapshot slice.snapshotTime)) := by
  have hwoken : ∀ gst, .toServer s' (.sliceResponse slice) ∉ (grUpdateGst st gst).2 := by
    intro gst hmem
    obtain ⟨id, rotx, -, h⟩ := grUpdateGst_out hmem
    cases h
  have hsend : ∀ {lpid : Lpid c} {e : GrEvent c}, e.slice? = none →
      (.toServer s' (.sliceResponse slice) : GrOut c) ≠ grSend lpid e := by
    intro lpid e he heq
    have hnone : (grSend lpid e).event.slice? = none := grSend_slice? he
    rw [← heq] at hnone
    cases hnone
  cases hw with
  | @sliceServe _ request he =>
    cases List.mem_singleton.mp ho
    refine ⟨?_, rfl⟩
    rcases he with rfl | ⟨-, hle⟩
    · exact hstable request rfl
    · exact hle
  | other _ _ _ _ _ hnew => exact (hnew _ (Outcome.mem_placed.mpr (.inl ⟨_, ho, rfl⟩))).elim
  | wake _ gst others _ hplaced hothers =>
    have hmem : (.inl s', .sliceResponse slice) ∈ r.placed s :=
      Outcome.mem_placed.mpr (.inl ⟨_, ho, rfl⟩)
    rw [hplaced] at hmem
    rcases List.mem_append.mp hmem with hmem | hmem
    · obtain ⟨o, hout, heq⟩ := List.mem_map.mp hmem
      obtain ⟨id, rotx, -, rfl⟩ := grUpdateGst_out hout
      cases heq
    · exact (hothers _ hmem).elim
  | abroad _ hget hclient => exact absurd (hformed.snapshot _ _ hget) hclient
  | getServe | getUnlocked => exact absurd (List.mem_singleton.mp ho) (hsend rfl)
  | getLocked | snapshotLocked | sliceLocked | receiveLocked => exact absurd ho (hwoken _)
  | snapshotUnlocked =>
    obtain ⟨i, hi, h⟩ := List.mem_mapIdx.mp ho
    cases h
  | putUnlocked =>
    rcases List.mem_cons.mp ho with ho | ho
    · exact absurd ho (hsend rfl)
    · split at ho
      · cases ho
      · obtain ⟨s'', -, h⟩ := List.mem_map.mp ho
        cases h
  | putLocked => cases ho
  | rotxRequest =>
    dsimp only at ho
    split at ho
    · cases ho
    · cases List.mem_singleton.mp ho
  | _ => simp at ho

/-! ## 3. Reads in a run -/

section Runs

variable {setup : Setup c (GrEvent c)} {h later past : List (GrAct c)} {s : ServerId c} {t : ℚ}
  {e : GrEvent c} {st : GrServerState c} {r : GrOutcome c} {o : GrOut c}
  {A N : Config (ServerId c) (ClientId c) (GrEvent c) (GrServerState c) (GrClientState c)}

/-- The stable time of a server is not later than what the entries of its version vector have held.
-/
theorem gr_gst_reached (hN : Run (grProgram c) GrStable (grWorld setup).config N past)
    (s : ServerId c) (j : Replica c) :
    (N.server s).gst ≤ largestHeld GrServerState.versionVector s j past := by
  have hmail := hN.mail (Q := fun _ => True) fun _ _ => trivial
  have hmet : EachMeets GrFirstEntryHeld past := (hN.mono fun _ _ h => h.2).eachMeets
  exact ((gr_promised hmail).1 s).1 hmet j s.2

/-- A server misses no version that its stable time has reached, when it looks for the latest one
that it can see. -/
theorem gr_complete (hr : Run (grProgram c) GrStable (grWorld setup).config A h)
    (hh : h = later ++ past) (hN : Run (grProgram c) GrStable (grWorld setup).config N past)
    (s : ServerId c) (key : Key) {time : ℚ} (htime : time ≤ (N.server s).gst)
    {visible : GrItem c → Bool} (hvisible : ∀ item, item.updateTime ≤ time → visible item) :
    (grReplicating c).Complete h past s key (fun _ item => item.updateTime ≤ time)
      (updateTimeOf (getValueAt (N.server s).store key visible)) := by
  have hcomplete := Replicating.complete (gr_vectors setup) (grWorld_fresh setup) grStable_enforces
    hr hh hN s key visible
  refine hcomplete.imp fun j item hle => ⟨?_, hvisible item hle⟩
  exact (hle.trans htime).trans (gr_gst_reached hN s j)

/-- **GETs miss nothing** that the stable time of the server has reached. -/
theorem gr_get_complete (hr : Run (grProgram c) GrStable (grWorld setup).config A h)
    (hh : h = later ++ .server s t e st r :: past) (ho : o ∈ r.outs) {kz : Key × ℚ}
    (hkz : kz ∈ grGetAnswered e o) :
    (grReplicating c).Complete h (.server s t e st r :: past) s kz.1
      (fun _ item => item.updateTime ≤ r.state.gst) kz.2 := by
  obtain ⟨N, N', -, hN', -, hafter⟩ := hr.around hh
  have hserve := hr.served (hh ▸ List.mem_append_right _ List.mem_cons_self)
  rw [grGetAnswered_read (grServerProcessEvent_some hserve) ho hkz, ← hafter]
  refine gr_complete hr hh hN' s kz.1 le_rfl fun item hle => ?_
  simp [grIsValueVisible, hle]

/-- **Slices miss nothing** that is not later than the time of their snapshot. -/
theorem gr_slice_complete (hr : Run (grProgram c) GrStable (grWorld setup).config A h)
    (hh : h = later ++ .server s t e st r :: past) {s' : ServerId c} {slice : GrSliceResponse c}
    (ho : .toServer s' (.sliceResponse slice) ∈ r.outs) :
    (grReplicating c).Complete h past s slice.key
      (fun _ item => item.updateTime ≤ slice.snapshotTime) slice.updateTime := by
  have hh' : h = (later ++ [.server s t e st r]) ++ past := by rw [hh, List.append_cons]
  obtain ⟨N, N', hN, hstep, -⟩ := hr.before_meets hh
  have hmail := hN.mail (Q := fun _ => True) fun _ _ => trivial
  obtain ⟨hle, htime⟩ : slice.snapshotTime ≤ (N.server s).gst ∧ slice.updateTime =
      updateTimeOf (getValueAt (N.server s).store slice.key
        (grIsValueVisibleSnapshot slice.snapshotTime)) := by
    have hstep := hstep.mail
    have hserver : N.mail.server = N.server := rfl
    rw [← hserver]
    generalize N.mail = M at hmail hstep
    generalize N'.mail = M' at hstep
    cases hstep with
    | @serve _ _ _ _ mail hev _ hserve =>
      have hmem : (.inl s, e) ∈ M.events := hev ▸ Multiset.mem_cons_self _ _
      refine (grProcessEvent_work (grServerProcessEvent_some hserve)).sliceServed
        (((gr_formed hmail).1 s).of_eq rfl rfl rfl rfl) ?_ ho
      rintro request rfl
      exact (gr_true hmail).2 _ hmem
  rw [htime]
  refine gr_complete hr hh' hN s slice.key hle fun item hle => ?_
  simp [grIsValueVisibleSnapshot, hle]

end Runs

end CCSim
