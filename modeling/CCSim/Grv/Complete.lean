/-
# What the reads of `grv` miss

The counterpart of `Gr/Complete.lean`.  The stable vector is a promise for every replica apart
(`grv_promised`), so a read misses no version of a replica that is not later than its entry
(`grv_get_complete`, `grv_slice_complete`).  What a server may show is another matter: it compares
the dependencies of a version with the stable vector, but not the time of the version.
-/
import CCSim.Grv.Gather
import CCSim.Grv.StableVector
import CCSim.Reads
import CCSim.Replicas.Retention
import CCSim.MessageOrder

namespace CCSim

variable {c : Cluster}

/-! ## 1. Version vectors -/

theorem grvInTime_enforces : (grvReplicating c).Enforces GrvInTime inTime :=
  Replicating.enforces (fun _ _ _ h => h.1.1) (fun _ _ _ h => h.1.2) (fun _ _ _ h => h.2.1)
    (fun _ _ _ h => h.2.2) False.elim False.elim

/-- A PUT and a clock tick write the own entry of the version vector. -/
theorem grv_vectors (setup : Setup c (GrvEvent c)) :
    (grvReplicating c).Vectors GrvServerState.versionVector (grvWorld setup).config where
  view _ _ _ hj := if_neg hj
  own {s t st e r} h hu hb := by
    have hr := grvServerProcessEvent_some h
    simp only [grvProcessEvent_vector hr]
    unfold grvVectorAfter
    split
    · exact .inr ⟨Function.update_self _ _ _, rfl, ((grvReplicating c).put h rfl).1⟩
    · cases hr
      exact .inr ⟨Function.update_self _ _ _, rfl, rfl⟩
    · exact .inl (Function.update_of_ne (hu _ rfl).symm _ _)
    · split
      · exact .inl (Function.update_of_ne (hb _ _ rfl).symm _ _)
      · exact .inl rfl
    · exact .inl rfl
  start s := clock_pos s setup.start_pos
  start_nonneg _ _ := le_rfl

/-! ## 2. Slices -/

/-- A value of a slice is the latest version that is covered by the stable vector, with the clock in
the place of the own replica. -/
theorem GrvWork.sliceServed {s s' : ServerId c} {st : GrvServerState c} {e : GrvEvent c}
    {r : GrvOutcome c} {slice : GrvSliceResponse c} (hw : GrvWork s st e r)
    (ho : .toServer s' (.sliceResponse slice) ∈ r.outs) {v : GrvSliceValue c}
    (hv : v ∈ slice.values) : v.updateTime = updateTimeOf
      (getValueAt st.store v.key (grvIsValueVisibleSnapshot (grvSnapshotVector s st))) := by
  have hsend : ∀ {lpid : Lpid c} {e : GrvEvent c}, e.slice? = none →
      (.toServer s' (.sliceResponse slice) : GrvOut c) ≠ grvSend lpid e := by
    intro lpid e he heq
    have hnone : (grvSend lpid e).event.slice? = none := grvSend_slice? he
    rw [← heq] at hnone
    cases hnone
  cases hw with
  | sliceServe =>
    cases List.mem_singleton.mp ho
    obtain ⟨x, -, rfl⟩ := List.mem_map.mp hv
    rfl
  | other _ _ _ hnew => exact (hnew _ (Outcome.mem_placed.mpr (.inl ⟨_, ho, rfl⟩))).elim
  | getServe => exact absurd (List.mem_singleton.mp ho) (hsend rfl)
  | putUnlocked =>
    rcases List.mem_cons.mp ho with ho | ho
    · exact absurd ho (hsend rfl)
    · split at ho
      · cases ho
      · obtain ⟨s'', -, h⟩ := List.mem_map.mp ho
        cases h
  | putLocked => cases ho
  | rotxOpen =>
    obtain ⟨p, -, hp⟩ := List.mem_filterMap.mp ho
    split at hp <;> cases hp
  | _ => simp at ho

/-! ## 3. Reads in a run -/

section Runs

variable {setup : Setup c (GrvEvent c)} {h later past : List (GrvAct c)} {s : ServerId c} {t : ℚ}
  {e : GrvEvent c} {st : GrvServerState c} {r : GrvOutcome c} {o : GrvOut c}
  {A N : Config (ServerId c) (ClientId c) (GrvEvent c) (GrvServerState c) (GrvClientState c)}

/-- A server misses no version that its stable vector has reached, when it looks for the latest one
that it can see. -/
theorem grv_complete (hr : Run (grvProgram c) GrvInTime (grvWorld setup).config A h)
    (hh : h = later ++ past) (hN : Run (grvProgram c) GrvInTime (grvWorld setup).config N past)
    (s : ServerId c) (key : Key) (visible : GrvItem c → Bool) :
    (grvReplicating c).Complete h past s key
      (fun j item => item.updateTime ≤ (N.server s).gstVector j ∧ visible item)
      (updateTimeOf (getValueAt (N.server s).store key visible)) := by
  have hcomplete := Replicating.complete (grv_vectors setup) (grvWorld_fresh setup)
    grvInTime_enforces hr hh hN s key visible
  have hpromised := (grv_promised (hN.mail (Q := fun _ => True) fun _ _ => trivial)).1 s
  exact hcomplete.imp fun j item hdue => ⟨hdue.1.trans (hpromised j s.2), hdue.2⟩

/-- **GETs miss nothing** that the stable vector of the server has reached and that they may show.
-/
theorem grv_get_complete (hr : Run (grvProgram c) GrvInTime (grvWorld setup).config A h)
    (hh : h = later ++ .server s t e st r :: past) (ho : o ∈ r.outs) {kz : Key × ℚ}
    (hkz : kz ∈ grvGetAnswered e o) :
    (grvReplicating c).Complete h (.server s t e st r :: past) s kz.1
      (fun j item => item.updateTime ≤ r.state.gstVector j ∧
        grvIsValueVisible s r.state.gstVector item) kz.2 := by
  obtain ⟨N, N', -, hN', -, hafter⟩ := hr.around hh
  have hserve := hr.served (hh ▸ List.mem_append_right _ List.mem_cons_self)
  rw [grvGetAnswered_read (grvServerProcessEvent_some hserve) ho hkz, ← hafter]
  exact grv_complete hr hh hN' s kz.1 _

/-- **Slices miss nothing** that the stable vector of the server has reached and that they may
show. -/
theorem grv_slice_complete (hr : Run (grvProgram c) GrvInTime (grvWorld setup).config A h)
    (hh : h = later ++ .server s t e st r :: past) {s' : ServerId c} {slice : GrvSliceResponse c}
    (ho : .toServer s' (.sliceResponse slice) ∈ r.outs) {v : GrvSliceValue c}
    (hv : v ∈ slice.values) : (grvReplicating c).Complete h past s v.key
      (fun j item => item.updateTime ≤ st.gstVector j ∧ grvIsValueVisibleSnapshot
        (Function.update st.gstVector s.1 (c.clock s t)) item) v.updateTime := by
  obtain ⟨N, N', hN, -, hbefore, -⟩ := hr.around hh
  have hserve := hr.served (hh ▸ List.mem_append_right _ List.mem_cons_self)
  have hh' : h = (later ++ [.server s t e st r]) ++ past := by rw [hh, List.append_cons]
  have hwork := grvProcessEvent_work (grvServerProcessEvent_some hserve)
  rw [hwork.sliceServed ho hv, ← hbefore]
  exact grv_complete hr hh' hN s v.key _

end Runs

end CCSim
