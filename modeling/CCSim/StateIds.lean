/-
# State ids are never stale

In both protocols an id that is in flight, in a message, a lock request or a continuation, is that of a
slot in use, with the object for which it was issued; a slot is taken when it is free and nothing
carries its id, and freed once, when nothing carries it any more (`gr_never_stale`,
`grv_never_stale`).
-/
import CCSim.Gr.StateIds
import CCSim.Grv.StateIds
import CCSim.Rounds

namespace CCSim

variable {c : Cluster}

/-! ## 1. What is seen in a replay -/

/-- Something that waits in the event list carries the id of the slot. -/
def StateView.seesId {E σ κ O : Type} (view : StateView c E σ O) (slot : Slot c)
    (W : World (ServerId c) (ClientId c) E σ κ) : Bool :=
  W.events.any fun ev => (ev.2.task ev.1).any fun x => x.placed?.any fun y =>
    decide (view.refers y = some slot)

theorem StateView.exists_id {E σ κ O : Type} {view : StateView c E σ O} {slot : Slot c}
    {W : World (ServerId c) (ClientId c) E σ κ} (h : view.seesId slot W = true) :
    ∃ x ∈ W.config.mail.events, view.refers x = some slot := by
  obtain ⟨ev, hev, htask⟩ := List.any_eq_true.mp h
  obtain ⟨x, hx, hplaced⟩ := (Option.any_eq_true _ _).mp htask
  obtain ⟨y, hy, hslot⟩ := (Option.any_eq_true _ _).mp hplaced
  refine ⟨y, (Multiset.mem_filterMap _ _).mpr ⟨x, ?_, hy⟩, of_decide_eq_true hslot⟩
  exact Multiset.mem_add.mpr (.inl (List.mem_filterMap.mpr ⟨ev, hev, hx⟩))

/-! ## 2. Both protocols -/

/-- **State ids are never stale**, in every state of every run. -/
theorem state_ids_never_stale (c : Cluster) :
    (∀ (setup : Setup c (GrEvent c)) (W : GrWorld c) (h : List (GrAct c)),
      World.Run (grProgram c) setup.conf (fun _ _ => True) (grWorld setup) W h →
        (grStateView c).NeverStale (grProgram c) (grWorld setup).config.mail W.config.mail h) ∧
    ∀ (setup : Setup c (GrvEvent c)) (W : GrvWorld c) (h : List (GrvAct c)),
      World.Run (grvProgram c) setup.conf (fun _ _ => True) (grvWorld setup) W h →
        (grvStateView c).NeverStale (grvProgram c) (grvWorld setup).config.mail W.config.mail h :=
  ⟨fun _ _ _ hrun => gr_never_stale (hrun.config.mail fun _ _ => trivial),
  fun _ _ _ hrun => grv_never_stale (hrun.config.mail fun _ _ => trivial)⟩

/-- The slot that the first PUT at the second partition takes. -/
def writerSlot : Slot trio := ⟨serverAt trio 0 1, .put, 0⟩

/-- The PUT of `writerSetup` waits for the lock, with the id of the slot that was taken for it. -/
theorem state_ids_never_stale_put :
    (∃ W h, World.Run (grProgram trio) (writerSetup _).conf (fun _ _ => True)
        (grWorld (writerSetup _)) W h ∧
      (∃ x ∈ W.config.mail.events, (grStateView trio).refers x = some writerSlot) ∧
      (grStateView trio).Issued (grProgram trio) (grWorld (writerSetup _)).config.mail W.config.mail h
        writerSlot) ∧
    ∃ W h, World.Run (grvProgram trio) (writerSetup _).conf (fun _ _ => True)
        (grvWorld (writerSetup _)) W h ∧
      (∃ x ∈ W.config.mail.events, (grvStateView trio).refers x = some writerSlot) ∧
      (grvStateView trio).Issued (grvProgram trio) (grvWorld (writerSetup _)).config.mail
        W.config.mail h writerSlot := by
  constructor
  · obtain ⟨W, h, hrun, hseen⟩ := World.Run.of_replay (grProgram trio) (writerSetup _).conf
      (grWorld (writerSetup _)) Cond.tested_true (roundRun.take 3)
      (fun x => (grStateView trio).seesId writerSlot x.1) (by decide +kernel)
    obtain ⟨x, hx, hslot⟩ := StateView.exists_id hseen
    have hstale := (state_ids_never_stale trio).1 (writerSetup _) W h hrun
    exact ⟨W, h, hrun, ⟨x, hx, hslot⟩, hstale.events x hx _ hslot⟩
  · obtain ⟨W, h, hrun, hseen⟩ := World.Run.of_replay (grvProgram trio) (writerSetup _).conf
      (grvWorld (writerSetup _)) Cond.tested_true (roundRun.take 3)
      (fun x => (grvStateView trio).seesId writerSlot x.1) (by decide +kernel)
    obtain ⟨x, hx, hslot⟩ := StateView.exists_id hseen
    have hstale := (state_ids_never_stale trio).2 (writerSetup _) W h hrun
    exact ⟨W, h, hrun, ⟨x, hx, hslot⟩, hstale.events x hx _ hslot⟩

end CCSim
