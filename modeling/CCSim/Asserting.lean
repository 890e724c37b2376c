/-
# What the assertions of handlers rest on, whatever the protocol

Most assertions of a handler are about its event: that a request is at the server that holds its
key, that a slot is in use, that a value from a child comes when it is waited for.  What is known of
the events in flight then says that the handler does not fail.  This file has what both protocols
need of this besides what was proved before: a GST computation starts at a leaf
(`RoundView.starts_at_leaves`), a server finds that time has not run backwards, and what it hands
over finds its way when the network is set up as the servers and clients do it
(`RequestView.Disciplined.handles`).
-/
import CCSim.Progress
import CCSim.RequestView
import CCSim.RoundView

namespace CCSim

variable {c : Cluster} {E σ κ χ V : Type}

/-- The server that a key is found at from anywhere in its data center owns the key. -/
theorem ownsKey_of_lpidForKey {s s' : ServerId c} {key : Key} (h : lpidForKey s' key = s) :
    ownsKey s key = true := by
  refine decide_eq_true ?_
  rw [← h]
  rfl

/-! ## 1. Where GST computations start -/

/-- A server that is told to start a GST computation is a leaf. -/
def RoundView.StartsAtLeaf (view : RoundView c E σ V) : (ServerId c ⊕ ClientId c) × E → Prop :=
  fun x => ∀ s p, view.tokenAt x = some (s, .start p) → isLeafPartition s.2 = true

theorem GstWork.starts_at_leaves [LinearOrder V] {view : RoundView c E σ V} {s : ServerId c}
    {st : σ}
    {e : E} {r : Outcome (ServerId c) (ClientId c) E σ} (hw : GstWork view s st e r)
    (he : view.StartsAtLeaf (.inl s, e)) : ∀ x ∈ r.placed s, view.StartsAtLeaf x := by
  intro x hx s' p hx'
  have hmem : (s', .start p) ∈ (r.placed s).filterMap view.tokenAt :=
    List.mem_filterMap.mpr ⟨x, hx, hx'⟩
  cases hw with
  | other _ _ _ hnew | note _ _ _ _ _ _ hnew =>
    rw [hnew] at hmem
    cases hmem
  | same t ht _ _ hnew =>
    rw [hnew] at hmem
    cases List.mem_singleton.mp hmem
    exact he s p (by rw [RoundView.tokenAt, ht]; rfl)
  | restart _ hleaf _ _ hnew =>
    rw [hnew] at hmem
    cases List.mem_singleton.mp hmem
    exact hleaf
  | start _ _ _ _ _ _ hnew | readMinimum _ _ _ hnew =>
    rw [hnew] at hmem
    cases List.mem_singleton.mp hmem
  | complete _ _ _ _ _ _ _ _ hnew =>
    rw [hnew] at hmem
    have hstart := List.mem_singleton.mp hmem
    split at hstart <;> cases hstart
  | tell _ _ _ _ hnew =>
    rw [hnew] at hmem
    obtain ⟨q, -, hq⟩ := List.mem_map.mp hmem
    cases hq

/-- **In every run, GST computations start at leaves.** -/
theorem RoundView.starts_at_leaves [LinearOrder V] {view : RoundView c E σ V}
    {P : Program (ServerId c) (ClientId c) E σ κ χ}
    {Q : Act (ServerId c) (ClientId c) E σ κ → Prop} {M₀ M : Mail (ServerId c) (ClientId c) E σ κ}
    {h : List (Act (ServerId c) (ClientId c) E σ κ)}
    (hwork : ∀ {M h s t e r}, Mail.Run P Q M₀ M h → (.inl s, e) ∈ M.events →
      P.serve s t (M.server s) e = some r → GstWork view s (M.server s) e r)
    (hclient : ∀ {k t x st e r}, P.client k t x st e = some r → ∀ y ∈ placedOfClient k r.2,
      view.tokenAt y = none)
    (hstart : ∀ x ∈ M₀.events, view.StartsAtLeaf x) (hr : Mail.Run P Q M₀ M h) :
    ∀ x ∈ M.events, view.StartsAtLeaf x := by
  refine (hr.flow_all (fun _ _ _ => True) (fun _ _ _ => True) (fun _ => view.StartsAtLeaf) id id id
    (fun hrun hmem hserve _ he => ⟨trivial, (hwork hrun hmem hserve).starts_at_leaves he⟩)
    (fun _ hasked _ _ => ⟨trivial, fun x hx s p hx' => ?_⟩) (fun _ => trivial) (fun _ => trivial)
    hstart).2.2
  rw [hclient hasked x hx] at hx'
  cases hx'

/-! ## 2. Handlers do not fail -/

/-- Whoever travels finds the delays that the servers and clients set. -/
theorem Out.Travels.reaches {x : ServerId c ⊕ ClientId c} {o : Out (ServerId c) (ClientId c) E}
    {conf : NetworkConfig (ServerId c ⊕ ClientId c)} {d : NetworkDelays c}
    (hconf : conf.networkDelay = d.networkDelay) (h : o.Travels x) : o.Reaches conf x := by
  cases o with
  | self => trivial
  | toServer | toClient =>
    rw [Out.Reaches, hconf]
    exact h d

/-- A task that is ready is an event in flight. -/
theorem Config.mem_mail {A : Config (ServerId c) (ClientId c) E σ κ}
    {x : Task (ServerId c) (ClientId c) E} {s : ServerId c} {e : E} (hx : x ∈ A.pool)
    (he : x.event? = some (s, e)) : (.inl s, e) ∈ A.mail.events :=
  (Multiset.mem_filterMap _ _).mpr ⟨x, hx, Task.placed?_of_event? he⟩

/-- **What is left to a protocol is that its servers do not fail.** -/
theorem RequestView.Disciplined.handles {view : RequestView c E σ κ}
    {P : Program (ServerId c) (ClientId c) E σ κ Decision}
    {A : Config (ServerId c) (ClientId c) E σ κ}
    {h : List (Act (ServerId c) (ClientId c) E σ κ)}
    {conf : NetworkConfig (ServerId c ⊕ ClientId c)} {d : NetworkDelays c} {G : E → Prop}
    (hA : view.Disciplined P A.mail h) (hconf : conf.networkDelay = d.networkDelay)
    (hserve : ∀ {x s t tb tb' e}, x ∈ A.pool → A.now ≤ t → Ready s t tb x e tb' → G e →
      (P.serve s t (A.server s) e).isSome) : A.Handles P conf G Decision.Valid where
  serve hx ht hready he := by
    obtain ⟨r, hr⟩ := Option.isSome_iff_exists.mp (hserve hx ht hready he)
    refine ⟨r, hr, fun o ho => ?_⟩
    exact (hA.fromServer _ _ _ r (Config.mem_mail hx hready.event?) hr o ho).reaches hconf
  client {k e t decision} hx ht hvalid := by
    have hmem : (.inr k, e) ∈ A.mail.events := (Multiset.mem_filterMap _ _).mpr ⟨_, hx, rfl⟩
    obtain ⟨r, hr⟩ := Option.isSome_iff_exists.mp (hA.client k e hmem t decision hvalid)
    exact ⟨r, hr, fun o ho => (hA.fromClient k e t decision r hmem hr o ho).reaches hconf⟩

end CCSim
