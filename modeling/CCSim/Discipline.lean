/-
# The discipline of requests and answers

Both protocols keep it (`gr_disciplined`, `grv_disciplined`): a client has one request outstanding at
most, there is one trace of it in the whole system, it gets one answer of the same kind, and gets it
while it waits; a GET or a PUT is forwarded once at most; and nothing is sent to a process that is
`DISCONNECTED`.
-/
import CCSim.Gr.Discipline
import CCSim.Grv.Discipline
import CCSim.Rounds

namespace CCSim

variable {c : Cluster}

/-! ## 1. What is seen in a replay -/

/-- An answer of this kind is about to reach the client. -/
def RequestView.seesAnswer {E σ κ : Type} (view : RequestView c E σ κ) (k : ClientId c)
    (kind : RequestKind) (W : World (ServerId c) (ClientId c) E σ κ) : Bool :=
  W.events.any fun ev => match ev.2 with
    | .client k' e => decide (k' = k ∧ view.responseKind e = some kind)
    | .server _ _ => false

theorem RequestView.exists_answer {E σ κ : Type} {view : RequestView c E σ κ} {k : ClientId c}
    {kind : RequestKind} {W : World (ServerId c) (ClientId c) E σ κ}
    (h : view.seesAnswer k kind W = true) :
    ∃ e, (.inr k, e) ∈ W.config.mail.events ∧ view.responseKind e = some kind := by
  obtain ⟨⟨t, target⟩, hev, hx⟩ := List.any_eq_true.mp h
  cases target with
  | server s e => cases hx
  | client k' e =>
    obtain ⟨rfl, hkind⟩ := of_decide_eq_true hx
    refine ⟨e, (Multiset.mem_filterMap _ _).mpr ⟨.client k' e, ?_, rfl⟩, hkind⟩
    exact Multiset.mem_add.mpr (.inl (List.mem_filterMap.mpr ⟨_, hev, rfl⟩))

/-! ## 2. Both protocols -/

/-- **Requests and answers.**  In every state of every run in which every client is set up once,
whatever the workloads decide. -/
theorem request_discipline (c : Cluster) :
    (∀ setup : Setup c (GrEvent c), (setup.clients.map Prod.snd).Nodup →
      ∀ (W : GrWorld c) (h : List (GrAct c)),
        World.Run (grProgram c) setup.conf (fun _ _ => True) (grWorld setup) W h →
          (grRequestView c).Disciplined (grProgram c) W.config.mail h) ∧
    ∀ setup : Setup c (GrvEvent c), (setup.clients.map Prod.snd).Nodup →
      ∀ (W : GrvWorld c) (h : List (GrvAct c)),
        World.Run (grvProgram c) setup.conf (fun _ _ => True) (grvWorld setup) W h →
          (grvRequestView c).Disciplined (grvProgram c) W.config.mail h :=
  ⟨fun _ hclients _ _ hrun =>
    gr_disciplined hclients (hrun.config.mail (Q := fun _ => True) fun _ _ => trivial),
  fun _ hclients _ _ hrun =>
    grv_disciplined hclients (hrun.config.mail (Q := fun _ => True) fun _ _ => trivial)⟩

/-- The client of `writerSetup` asks for one PUT, and is answered. -/
theorem request_discipline_put :
    (∃ W h, World.Run (grProgram trio) (writerSetup _).conf (fun _ _ => True)
        (grWorld (writerSetup _)) W h ∧
      (h.flatMap ((grRequestView trio).requests (clientAt trio 0 1 0))).count .put =
        (h.flatMap ((grRequestView trio).responses (clientAt trio 0 1 0))).count .put + 1) ∧
    ∃ W h, World.Run (grvProgram trio) (writerSetup _).conf (fun _ _ => True)
        (grvWorld (writerSetup _)) W h ∧
      (h.flatMap ((grvRequestView trio).requests (clientAt trio 0 1 0))).count .put =
        (h.flatMap ((grvRequestView trio).responses (clientAt trio 0 1 0))).count .put + 1 := by
  have hone : ∀ {E : Type}, ((writerSetup E).clients.map Prod.snd).Nodup := List.nodup_singleton _
  constructor
  · obtain ⟨W, h, hrun, hseen⟩ := World.Run.of_replay (grProgram trio) (writerSetup _).conf
      (grWorld (writerSetup _)) Cond.tested_true (roundRun.take 4)
      (fun x => (grRequestView trio).seesAnswer (clientAt trio 0 1 0) .put x.1) (by decide +kernel)
    obtain ⟨e, hev, hkind⟩ := RequestView.exists_answer hseen
    have hdisciplined := (request_discipline trio).1 (writerSetup _) hone W h hrun
    refine ⟨W, h, hrun, ?_⟩
    rw [hdisciplined.counts, if_pos (hdisciplined.answer _ e .put hev hkind).1]
  · obtain ⟨W, h, hrun, hseen⟩ := World.Run.of_replay (grvProgram trio) (writerSetup _).conf
      (grvWorld (writerSetup _)) Cond.tested_true (roundRun.take 4)
      (fun x => (grvRequestView trio).seesAnswer (clientAt trio 0 1 0) .put x.1) (by decide +kernel)
    obtain ⟨e, hev, hkind⟩ := RequestView.exists_answer hseen
    have hdisciplined := (request_discipline trio).2 (writerSetup _) hone W h hrun
    refine ⟨W, h, hrun, ?_⟩
    rw [hdisciplined.counts, if_pos (hdisciplined.answer _ e .put hev hkind).1]

end CCSim
