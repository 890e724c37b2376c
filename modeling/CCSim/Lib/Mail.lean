/-
# Events in flight: a task pool without its locks

What a message says, and how many messages there are about one thing, does not depend on which
locks are held.  A `Mail` forgets them: it is the time, the local states, and the events that are
still to be handled, each at the process it is for, no matter whether it travels, waits for a core
or waits for a lock.  A step handles one of them.  Every run of a task pool is such a run
(`Run.mail`).

Two rules cover most invariants of such a system.  What every handler passes on is true of all
events in flight (`Mail.Run.flow`).  And if every handler keeps the books, the books balance: the
weights of all events in flight and of all local states add up to what they were at the start
(`Mail.Run.balance`).
-/
import CCSim.Lib.TaskPool
import Mathlib.Algebra.BigOperators.Group.Finset.Basic
import Mathlib.Algebra.BigOperators.Group.Finset.Piecewise
import Mathlib.Data.Fintype.Basic
import Mathlib.Tactic.Abel

namespace CCSim

variable {S K E σ κ χ : Type}

/-! ## 1. Places -/

/-- Where something goes that a server hands over. -/
def Out.place (s : S) : Out S K E → S ⊕ K
  | .toServer s' _ => .inl s'
  | .toClient k _ => .inr k
  | .self _ _ => .inl s

def Out.placeOfClient (k : K) : Out S K E → S ⊕ K
  | .toServer s _ => .inl s
  | .toClient k' _ => .inr k'
  | .self _ _ => .inr k

/-- If a sum is not 0, something counts. -/
theorem exists_of_sum_map_ne_zero {A B : Type} [AddCommMonoid B] {f : A → B} {m : Multiset A}
    (h : (m.map f).sum ≠ 0) : ∃ x ∈ m, f x ≠ 0 := by
  by_contra hall
  push Not at hall
  refine h (Multiset.sum_eq_zero fun y hy => ?_)
  obtain ⟨x, hx, rfl⟩ := Multiset.mem_map.mp hy
  exact hall x hx

/-- What is in a sum of multisets is in one of them. -/
theorem exists_of_mem_sum_map {A B : Type} {f : A → Multiset B} {m : Multiset A} {y : B}
    (h : y ∈ (m.map f).sum) : ∃ x ∈ m, y ∈ f x := by
  induction m using Multiset.induction with
  | empty => cases h
  | cons x m ih =>
    rw [Multiset.map_cons, Multiset.sum_cons] at h
    rcases Multiset.mem_add.mp h with h | h
    · exact ⟨x, Multiset.mem_cons_self _ _, h⟩
    · obtain ⟨x', hx', hy⟩ := ih h
      exact ⟨x', Multiset.mem_cons_of_mem hx', hy⟩

/-- The event that a task carries, with the process that will handle it. -/
def Task.placed? : Task S K E → Option ((S ⊕ K) × E)
  | .pending s e => some (.inl s, e)
  | .request s _ _ e => some (.inl s, e)
  | .release s _ _ e _ => e.map fun e => (.inl s, e)
  | .client k e => some (.inr k, e)

/-- The events that a handler of the server `s` leaves behind. -/
def Outcome.placed (s : S) (r : Outcome S K E σ) : List ((S ⊕ K) × E) :=
  r.outs.map (fun o => (o.place s, o.event)) ++ r.cont.event?.toList.map fun e => (.inl s, e)

/-- The events that a handler of the client `k` leaves behind. -/
def placedOfClient (k : K) (outs : List (Out S K E)) : List ((S ⊕ K) × E) :=
  outs.map fun o => (o.placeOfClient k, o.event)

theorem Outcome.mem_placed {s : S} {r : Outcome S K E σ} {x : (S ⊕ K) × E} :
    x ∈ r.placed s ↔ (∃ o ∈ r.outs, (o.place s, o.event) = x) ∨
      ∃ e ∈ r.cont.event?, (.inl s, e) = x := by
  simp [Outcome.placed]

/-- What is true of all that a handler hands over and of the event it ends with. -/
theorem Outcome.forall_placed {p : (S ⊕ K) × E → Prop} {s : S} {r : Outcome S K E σ}
    (houts : ∀ o ∈ r.outs, p (o.place s, o.event)) (hcont : ∀ e ∈ r.cont.event?, p (.inl s, e)) :
    ∀ x ∈ r.placed s, p x := by
  intro x hx
  rcases Outcome.mem_placed.mp hx with ⟨o, ho, rfl⟩ | ⟨e, he, rfl⟩
  · exact houts o ho
  · exact hcont e he

/-- A sum over what a handler leaves behind. -/
theorem Outcome.sum_placed {B : Type} [AddCommMonoid B] (w : (S ⊕ K) × E → B) (s : S)
    (r : Outcome S K E σ) : ((r.placed s).map w).sum =
      (r.outs.map fun o => w (o.place s, o.event)).sum +
        r.cont.event?.elim 0 fun e => w (.inl s, e) := by
  rw [Outcome.placed, List.map_append, List.sum_append, List.map_map, List.map_map]
  cases r.cont.event? <;> simp [Function.comp_def]

theorem Task.placed?_of_event? {x : Task S K E} {s : S} {e : E} (h : x.event? = some (s, e)) :
    x.placed? = some (.inl s, e) := by
  cases x with
  | release s' m id e' u =>
    cases e' with
    | none => cases h
    | some e' => cases h; rfl
  | client => cases h
  | _ => cases h; rfl

theorem Outcome.filterMap_tasks (s : S) (u : ℚ) (r : Outcome S K E σ) :
    (r.tasks s u).filterMap Task.placed? = r.placed s := by
  rw [Outcome.tasks, Outcome.placed, List.filterMap_append, List.filterMap_map]
  congr 1
  · rw [← List.filterMap_eq_map]
    refine congrArg (List.filterMap · r.outs) (funext fun o => ?_)
    cases o <;> rfl
  · cases r.cont with
    | done => rfl
    | lock => rfl
    | unlock m id e => cases e <;> rfl

theorem filterMap_taskOfClient (k : K) (outs : List (Out S K E)) :
    (outs.map (Out.taskOfClient k)).filterMap Task.placed? = placedOfClient k outs := by
  rw [placedOfClient, List.filterMap_map, ← List.filterMap_eq_map]
  refine congrArg (List.filterMap · outs) (funext fun o => ?_)
  cases o <;> rfl

/-! ## 2. The system -/

/-- The time, the local states and the events in flight. -/
structure Mail (S K E σ κ : Type) where
  now : ℚ
  server : S → σ
  client : K → κ
  events : Multiset ((S ⊕ K) × E)

/-- What is left of a configuration without its locks. -/
def Config.mail (A : Config S K E σ κ) : Mail S K E σ κ :=
  ⟨A.now, A.server, A.client, A.pool.filterMap Task.placed?⟩

variable [DecidableEq S] [DecidableEq K] {P : Program S K E σ κ χ}

/-- One step: an event is handled, or time passes. -/
inductive Mail.Step (P : Program S K E σ κ χ) :
    Mail S K E σ κ → Option (Act S K E σ κ) → Mail S K E σ κ → Prop
  | serve {M : Mail S K E σ κ} {s : S} {t : ℚ} {e : E} {r : Outcome S K E σ}
      {mail : Multiset ((S ⊕ K) × E)} (hev : M.events = (.inl s, e) ::ₘ mail) (ht : M.now ≤ t)
      (hr : P.serve s t (M.server s) e = some r) :
      Step P M (some (.server s t e (M.server s) r))
        ⟨t, Function.update M.server s r.state, M.client,
          mail + ((r.placed s : List _) : Multiset _)⟩
  | client {M : Mail S K E σ κ} {k : K} {t : ℚ} {x : χ} {e : E} {r : κ × List (Out S K E)}
      {mail : Multiset ((S ⊕ K) × E)} (hev : M.events = (.inr k, e) ::ₘ mail) (ht : M.now ≤ t)
      (hr : P.client k t x (M.client k) e = some r) :
      Step P M (some (.client k t e (M.client k) r))
        ⟨t, M.server, Function.update M.client k r.1,
          mail + ((placedOfClient k r.2 : List _) : Multiset _)⟩
  | wait {M : Mail S K E σ κ} {t : ℚ} (ht : M.now ≤ t) : Step P M none { M with now := t }

/-- A run, with its handler calls, each of which meets the condition `Q`. -/
inductive Mail.Run (P : Program S K E σ κ χ) (Q : Act S K E σ κ → Prop) (M₀ : Mail S K E σ κ) :
    Mail S K E σ κ → List (Act S K E σ κ) → Prop
  | nil : Run P Q M₀ M₀ []
  | cons {M M' : Mail S K E σ κ} {h : List (Act S K E σ κ)} {a : Option (Act S K E σ κ)}
      (hrun : Run P Q M₀ M h) (hstep : Mail.Step P M a M') (hq : ∀ x ∈ a, Q x) :
      Run P Q M₀ M' (a.toList ++ h)

theorem Step.mail {A A' : Config S K E σ κ} {a : Option (Act S K E σ κ)} (hs : Step P A a A') :
    Mail.Step P A.mail a A'.mail := by
  cases hs with
  | @serve s t x e tb r rest new hpool ht hx hr hnew =>
    obtain ⟨u, -, -, rfl⟩ := hnew
    have hev : A.mail.events = (.inl s, e) ::ₘ rest.filterMap Task.placed? := by
      rw [Config.mail, hpool, Multiset.filterMap_cons_some _ _ _
        (Task.placed?_of_event? hx.event?)]
    have := Mail.Step.serve (P := P) hev ht hr
    rwa [← Outcome.filterMap_tasks s u r, ← Multiset.filterMap_coe,
      ← Multiset.filterMap_add] at this
  | @release s t ready m id tb rest hpool ht hready h =>
    have hev : A.mail.events = rest.filterMap Task.placed? := by
      rw [Config.mail, hpool, Multiset.filterMap_cons_none _ _ rfl]
    have := Mail.Step.wait (P := P) (M := A.mail) ht
    rwa [hev] at this
  | @client k t e x r rest hpool ht hr =>
    have hev : A.mail.events = (.inr k, e) ::ₘ rest.filterMap Task.placed? := by
      rw [Config.mail, hpool]
      exact Multiset.filterMap_cons_some Task.placed? _ _ rfl
    have := Mail.Step.client (P := P) hev ht hr
    rwa [← filterMap_taskOfClient k r.2, ← Multiset.filterMap_coe,
      ← Multiset.filterMap_add] at this
  | wait ht => exact .wait ht

variable {C : Cond S K E σ κ} {A₀ A : Config S K E σ κ} {Q : Act S K E σ κ → Prop}
  {M₀ M M' : Mail S K E σ κ} {h : List (Act S K E σ κ)} {a : Option (Act S K E σ κ)}

/-- **A run of the task pool is a run of its events.** -/
theorem Run.mail (hr : Run P C A₀ A h) (hQ : ∀ x ∈ h, Q x) : Mail.Run P Q A₀.mail A.mail h := by
  induction hr with
  | nil => exact .nil
  | cons _ hstep _ ih =>
    refine .cons (ih fun x hx => hQ x (List.mem_append_right _ hx)) hstep.mail fun x hx => ?_
    exact hQ x (List.mem_append_left _ (Option.mem_toList.mpr hx))

/-- Under a condition that looks at the handler calls only, every handler call meets it. -/
theorem Run.mail_of_cond (hr : Run P (fun _ => Q) A₀ A h) : Mail.Run P Q A₀.mail A.mail h := by
  induction hr with
  | nil => exact .nil
  | cons _ hstep hc ih => exact .cons ih hstep.mail hc

theorem Mail.Step.now_le (hs : Mail.Step P M a M') : M.now ≤ M'.now := by
  cases hs <;> assumption

/-- Every handler call of a run is a step from where the run was before it. -/
theorem Mail.Run.before {l₁ l₂ : List (Act S K E σ κ)} {b : Act S K E σ κ}
    (hr : Mail.Run P Q M₀ M h) (hh : h = l₂ ++ b :: l₁) :
    ∃ N N', Mail.Run P Q M₀ N l₁ ∧ Mail.Step P N (some b) N' := by
  induction hr generalizing l₂ with
  | nil => simp at hh
  | @cons M M' h a hrun hstep hq ih =>
    cases a with
    | none => exact ih hh
    | some a =>
      cases l₂ with
      | nil =>
        obtain ⟨rfl, rfl⟩ := List.cons.inj hh
        exact ⟨_, _, hrun, hstep⟩
      | cons _ l₂ => exact ih (List.cons.inj hh).2

/-! ## 3. What is passed on -/

/-- **The flow rule.**  What is said of local states and events may refer to the past, and stays true
when more happens.  If every handler that relies on it passes it on, it is true of all of them in
every state. -/
theorem Mail.Run.flow_all (srv : List (Act S K E σ κ) → S → σ → Prop)
    (cli : List (Act S K E σ κ) → K → κ → Prop) (good : List (Act S K E σ κ) → (S ⊕ K) × E → Prop)
    (hsrvMore : ∀ {a h s st}, srv h s st → srv (a :: h) s st)
    (hcliMore : ∀ {a h k st}, cli h k st → cli (a :: h) k st)
    (hgoodMore : ∀ {a h x}, good h x → good (a :: h) x)
    (hserve : ∀ {M h s t e r}, Mail.Run P Q M₀ M h → (.inl s, e) ∈ M.events →
      P.serve s t (M.server s) e = some r → srv h s (M.server s) → good h (.inl s, e) →
        srv (.server s t e (M.server s) r :: h) s r.state ∧
          ∀ x ∈ r.placed s, good (.server s t e (M.server s) r :: h) x)
    (hclient : ∀ {M h k t c e r}, Mail.Run P Q M₀ M h → P.client k t c (M.client k) e = some r →
      cli h k (M.client k) → good h (.inr k, e) → cli (.client k t e (M.client k) r :: h) k r.1 ∧
        ∀ x ∈ placedOfClient k r.2, good (.client k t e (M.client k) r :: h) x)
    (hsrv : ∀ s, srv [] s (M₀.server s)) (hcli : ∀ k, cli [] k (M₀.client k))
    (hgood : ∀ x ∈ M₀.events, good [] x) (hr : Mail.Run P Q M₀ M h) :
    (∀ s, srv h s (M.server s)) ∧ (∀ k, cli h k (M.client k)) ∧ ∀ x ∈ M.events, good h x := by
  induction hr with
  | nil => exact ⟨hsrv, hcli, hgood⟩
  | @cons M M' h a hrun hstep hq ih =>
    obtain ⟨ihs, ihk, ihe⟩ := ih
    cases hstep with
    | @serve s t e r mail hev ht hr =>
      have hmem : (.inl s, e) ∈ M.events := by rw [hev]; exact Multiset.mem_cons_self _ _
      obtain ⟨hst, hnew⟩ := hserve hrun hmem hr (ihs s) (ihe _ hmem)
      rw [hev] at ihe
      refine ⟨fun s' => ?_, fun k => hcliMore (ihk k), fun x hx => ?_⟩
      · by_cases hs : s' = s
        · subst hs
          dsimp only
          rwa [Function.update_self]
        · dsimp only
          rw [Function.update_of_ne hs]
          exact hsrvMore (ihs s')
      · rcases Multiset.mem_add.mp hx with hx | hx
        · exact hgoodMore (ihe x (Multiset.mem_cons_of_mem hx))
        · exact hnew x (Multiset.mem_coe.mp hx)
    | @client k t c e r mail hev ht hr =>
      rw [hev] at ihe
      obtain ⟨hst, hnew⟩ := hclient hrun hr (ihk k) (ihe _ (Multiset.mem_cons_self _ _))
      refine ⟨fun s => hsrvMore (ihs s), fun k' => ?_, fun x hx => ?_⟩
      · by_cases hk : k' = k
        · subst hk
          dsimp only
          rwa [Function.update_self]
        · dsimp only
          rw [Function.update_of_ne hk]
          exact hcliMore (ihk k')
      · rcases Multiset.mem_add.mp hx with hx | hx
        · exact hgoodMore (ihe x (Multiset.mem_cons_of_mem hx))
        · exact hnew x (Multiset.mem_coe.mp hx)
    | wait ht => exact ⟨ihs, ihk, ihe⟩

/-- The flow rule for what does not refer to the past. -/
theorem Mail.Run.flow (srv : S → σ → Prop) (cli : K → κ → Prop) (good : (S ⊕ K) × E → Prop)
    (hserve : ∀ {s t st e r}, P.serve s t st e = some r → srv s st → good (.inl s, e) →
      srv s r.state ∧ ∀ x ∈ r.placed s, good x)
    (hclient : ∀ {k t c st e r}, P.client k t c st e = some r → cli k st → good (.inr k, e) →
      cli k r.1 ∧ ∀ x ∈ placedOfClient k r.2, good x)
    (hsrv : ∀ s, srv s (M₀.server s)) (hcli : ∀ k, cli k (M₀.client k))
    (hgood : ∀ x ∈ M₀.events, good x) (hr : Mail.Run P Q M₀ M h) :
    (∀ s, srv s (M.server s)) ∧ (∀ k, cli k (M.client k)) ∧ ∀ x ∈ M.events, good x :=
  hr.flow_all (fun _ => srv) (fun _ => cli) (fun _ => good) id id id
    (fun _ _ hserved => hserve hserved) (fun _ hasked => hclient hasked) hsrv hcli hgood

/-- **The flow rule, when what is said refers to the servers.**  The state of a server only grows,
and what is said of servers and events stays true when servers grow. -/
theorem Mail.Run.flow_growing (srv : (S → σ) → S → Prop) (good : (S → σ) → (S ⊕ K) × E → Prop)
    {grows : σ → σ → Prop} (hrefl : ∀ st, grows st st)
    (hgrows : ∀ {s t st e r}, P.serve s t st e = some r → grows st r.state)
    (hsrv : ∀ {f g : S → σ} {s}, (∀ s, grows (f s) (g s)) → f s = g s → srv f s → srv g s)
    (hgood : ∀ {f g : S → σ} {x}, (∀ s, grows (f s) (g s)) → good f x → good g x)
    (hserve : ∀ {M h s t e r}, Mail.Run P Q M₀ M h → (.inl s, e) ∈ M.events →
      P.serve s t (M.server s) e = some r →
      (∀ s', grows (M.server s') (Function.update M.server s r.state s')) →
      srv M.server s → good M.server (.inl s, e) →
        srv (Function.update M.server s r.state) s ∧
          ∀ x ∈ r.placed s, good (Function.update M.server s r.state) x)
    (hclient : ∀ {M h k t c e r}, Mail.Run P Q M₀ M h → P.client k t c (M.client k) e = some r →
      ∀ x ∈ placedOfClient k r.2, good M.server x)
    (hsrv₀ : ∀ s, srv M₀.server s) (hgood₀ : ∀ x ∈ M₀.events, good M₀.server x)
    (hr : Mail.Run P Q M₀ M h) : (∀ s, srv M.server s) ∧ ∀ x ∈ M.events, good M.server x := by
  induction hr with
  | nil => exact ⟨hsrv₀, hgood₀⟩
  | @cons M M' h a hrun hstep hq ih =>
    obtain ⟨ihs, ihe⟩ := ih
    cases hstep with
    | @serve s t e r mail hev ht hr =>
      have hmem : (.inl s, e) ∈ M.events := by rw [hev]; exact Multiset.mem_cons_self _ _
      have hgrow : ∀ s', grows (M.server s') (Function.update M.server s r.state s') := by
        intro s'
        by_cases hs : s' = s
        · subst hs
          rw [Function.update_self]
          exact hgrows hr
        · rw [Function.update_of_ne hs]
          exact hrefl _
      obtain ⟨hst, hnew⟩ := hserve hrun hmem hr hgrow (ihs s) (ihe _ hmem)
      rw [hev] at ihe
      refine ⟨fun s' => ?_, fun x hx => ?_⟩
      · by_cases hs : s' = s
        · exact hs ▸ hst
        · exact hsrv hgrow (Function.update_of_ne hs _ _).symm (ihs s')
      · rcases Multiset.mem_add.mp hx with hx | hx
        · exact hgood hgrow (ihe x (Multiset.mem_cons_of_mem hx))
        · exact hnew x (Multiset.mem_coe.mp hx)
    | @client k t c e r mail hev ht hr =>
      have hnew := hclient hrun hr
      rw [hev] at ihe
      refine ⟨ihs, fun x hx => ?_⟩
      rcases Multiset.mem_add.mp hx with hx | hx
      · exact ihe x (Multiset.mem_cons_of_mem hx)
      · exact hnew x (Multiset.mem_coe.mp hx)
    | wait ht => exact ⟨ihs, ihe⟩

/-- The flow rule for what is said of events only, with regard to the past. -/
theorem Mail.Run.flow_past (good : List (Act S K E σ κ) → (S ⊕ K) × E → Prop)
    (hmore : ∀ {a h x}, good h x → good (a :: h) x)
    (hserve : ∀ {M h s t e r}, Mail.Run P Q M₀ M h → (.inl s, e) ∈ M.events →
      P.serve s t (M.server s) e = some r → good h (.inl s, e) →
        ∀ x ∈ r.placed s, good (.server s t e (M.server s) r :: h) x)
    (hclient : ∀ {M h k t c e r}, Mail.Run P Q M₀ M h → P.client k t c (M.client k) e = some r →
      ∀ x ∈ placedOfClient k r.2, good (.client k t e (M.client k) r :: h) x)
    (hgood : ∀ x ∈ M₀.events, good [] x) (hr : Mail.Run P Q M₀ M h) : ∀ x ∈ M.events, good h x :=
  (hr.flow_all (fun _ _ _ => True) (fun _ _ _ => True) good (fun _ => trivial) (fun _ => trivial)
    hmore (fun hrun hmem hserved _ he => ⟨trivial, hserve hrun hmem hserved he⟩)
    (fun hrun hasked _ _ => ⟨trivial, hclient hrun hasked⟩) (fun _ => trivial) (fun _ => trivial)
    hgood).2.2

/-- **The account rule.**  What is said of the sum of all events in flight, the past and the servers,
and what every handler that takes one event out and puts others in keeps, is true in every state. -/
theorem Mail.Run.account {B : Type} [AddCommMonoid B] (w : (S ⊕ K) × E → B)
    (I : List (Act S K E σ κ) → B → (S → σ) → Prop)
    (hserve : ∀ {M h s t e r mail}, Mail.Run P Q M₀ M h → M.events = (.inl s, e) ::ₘ mail →
      P.serve s t (M.server s) e = some r →
      I h (w (.inl s, e) + (mail.map w).sum) M.server →
        I (.server s t e (M.server s) r :: h) (((r.placed s).map w).sum + (mail.map w).sum)
          (Function.update M.server s r.state))
    (hclient : ∀ {M h k t c e r mail}, Mail.Run P Q M₀ M h → M.events = (.inr k, e) ::ₘ mail →
      P.client k t c (M.client k) e = some r →
      I h (w (.inr k, e) + (mail.map w).sum) M.server →
        I (.client k t e (M.client k) r :: h)
          (((placedOfClient k r.2).map w).sum + (mail.map w).sum) M.server)
    (h₀ : I [] (M₀.events.map w).sum M₀.server) (hr : Mail.Run P Q M₀ M h) :
    I h (M.events.map w).sum M.server := by
  induction hr with
  | nil => exact h₀
  | @cons M M' h a hrun hstep hq ih =>
    cases hstep with
    | @serve s t e r mail hev ht hr =>
      rw [hev, Multiset.map_cons, Multiset.sum_cons] at ih
      have := hserve hrun hev hr ih
      rwa [add_comm, ← Multiset.sum_coe, ← Multiset.map_coe, ← Multiset.sum_add,
        ← Multiset.map_add] at this
    | @client k t c e r mail hev ht hr =>
      rw [hev, Multiset.map_cons, Multiset.sum_cons] at ih
      have := hclient hrun hev hr ih
      rwa [add_comm, ← Multiset.sum_coe, ← Multiset.map_coe, ← Multiset.sum_add,
        ← Multiset.map_add] at this
    | wait ht => exact ih

/-! ## 4. Books that balance -/

section Balance

variable [Fintype S] {B : Type} [AddCommGroup B]

/-- The weights of all events in flight, of all servers and of one client. -/
def Mail.total (weight : (S ⊕ K) × E → B) (held : S → σ → B) (k : K) (heldByClient : κ → B)
    (M : Mail S K E σ κ) : B :=
  (M.events.map weight).sum + ∑ s, held s (M.server s) + heldByClient (M.client k)

variable {weight : (S ⊕ K) × E → B} {held : S → σ → B} {k : K} {heldByClient : κ → B}

omit [DecidableEq K] in
theorem sum_held_update (held : S → σ → B) (f : S → σ) (s : S) (v : σ) :
    ∑ s', held s' (Function.update f s v s') + held s (f s) =
      ∑ s', held s' (f s') + held s v := by
  rw [← Finset.add_sum_erase _ _ (Finset.mem_univ s),
    ← Finset.add_sum_erase _ (fun s' => held s' (f s')) (Finset.mem_univ s),
    Function.update_self]
  have hrest : ∑ s' ∈ Finset.univ.erase s, held s' (Function.update f s v s') =
      ∑ s' ∈ Finset.univ.erase s, held s' (f s') :=
    Finset.sum_congr rfl fun s' hs' => by rw [Function.update_of_ne (Finset.ne_of_mem_erase hs')]
  rw [hrest]
  abel

omit [DecidableEq K] in
/-- A server that gives away what it gets keeps the total. -/
theorem Mail.total_serve {s : S} {e : E} {r : Outcome S K E σ} {mail : Multiset ((S ⊕ K) × E)}
    (hev : M.events = (.inl s, e) ::ₘ mail)
    (h : ((r.placed s).map weight).sum + held s r.state =
      weight (.inl s, e) + held s (M.server s)) (t : ℚ) :
    Mail.total weight held k heldByClient ⟨t, Function.update M.server s r.state, M.client,
      mail + ((r.placed s : List _) : Multiset _)⟩ = M.total weight held k heldByClient := by
  have hsum := sum_held_update held M.server s r.state
  simp only [Mail.total, hev, Multiset.map_add, Multiset.sum_add, Multiset.map_cons,
    Multiset.sum_cons, Multiset.map_coe, Multiset.sum_coe]
  rw [← sub_eq_zero] at h hsum ⊢
  have hboth := congrArg₂ (· + ·) h hsum
  simp only [add_zero] at hboth
  rw [← hboth]
  abel

omit [DecidableEq S] in
/-- A client that gives away what it gets keeps the total. -/
theorem Mail.total_client {k' : K} {e : E} {r : κ × List (Out S K E)}
    {mail : Multiset ((S ⊕ K) × E)} (hev : M.events = (.inr k', e) ::ₘ mail)
    (h : ((placedOfClient k' r.2).map weight).sum + (if k' = k then heldByClient r.1 else 0) =
      weight (.inr k', e) + if k' = k then heldByClient (M.client k) else 0) (t : ℚ) :
    Mail.total weight held k heldByClient ⟨t, M.server, Function.update M.client k' r.1,
      mail + ((placedOfClient k' r.2 : List _) : Multiset _)⟩ =
        M.total weight held k heldByClient := by
  simp only [Mail.total, hev, Multiset.map_add, Multiset.sum_add, Multiset.map_cons,
    Multiset.sum_cons, Multiset.map_coe, Multiset.sum_coe]
  have h' := sub_eq_zero.mpr h
  by_cases hk : k' = k
  · subst hk
    rw [if_pos rfl, if_pos rfl] at h'
    rw [Function.update_self, ← sub_eq_zero, ← h']
    abel
  · rw [if_neg hk, if_neg hk] at h'
    rw [Function.update_of_ne (Ne.symm hk), ← sub_eq_zero, ← h']
    abel

/-- **The balance rule.**  If every handler keeps all of some books, as long as they all balance,
then no total ever changes. -/
theorem Mail.Run.balance {ι : Type} (weight : ι → (S ⊕ K) × E → B) (held : ι → S → σ → B)
    (k : ι → K) (heldByClient : ι → κ → B)
    (hserve : ∀ {M h s t e r}, Mail.Run P Q M₀ M h → (.inl s, e) ∈ M.events →
      (∀ i, M.total (weight i) (held i) (k i) (heldByClient i) =
        M₀.total (weight i) (held i) (k i) (heldByClient i)) →
      P.serve s t (M.server s) e = some r → ∀ i,
        ((r.placed s).map (weight i)).sum + held i s r.state =
          weight i (.inl s, e) + held i s (M.server s))
    (hclient : ∀ {M h k' t x e r}, Mail.Run P Q M₀ M h → (.inr k', e) ∈ M.events →
      P.client k' t x (M.client k') e = some r → ∀ i,
        ((placedOfClient k' r.2).map (weight i)).sum +
            (if k' = k i then heldByClient i r.1 else 0) =
          weight i (.inr k', e) + if k' = k i then heldByClient i (M.client (k i)) else 0)
    (hr : Mail.Run P Q M₀ M h) (i : ι) :
    M.total (weight i) (held i) (k i) (heldByClient i) =
      M₀.total (weight i) (held i) (k i) (heldByClient i) := by
  induction hr generalizing i with
  | nil => rfl
  | @cons M M' h a hrun hstep hq ih =>
    cases hstep with
    | @serve s t e r mail hev ht hr =>
      have hmem : (.inl s, e) ∈ M.events := by rw [hev]; exact Multiset.mem_cons_self _ _
      exact (Mail.total_serve hev (hserve hrun hmem ih hr i) t).trans (ih i)
    | @client k' t x e r mail hev ht hr =>
      have hmem : (.inr k', e) ∈ M.events := by rw [hev]; exact Multiset.mem_cons_self _ _
      exact (Mail.total_client hev (hclient hrun hmem hr i) t).trans (ih i)
    | wait ht => exact ih i

/-- **The ledger rule.**  The weights of all events in flight and of all servers add up to what is
owed, which is read off the past: servers give away what they get, and what a client makes of what it
gets changes what is owed. -/
theorem Mail.Run.ledger (weight : (S ⊕ K) × E → B) (held : S → σ → B)
    (owed : List (Act S K E σ κ) → B)
    (hserve : ∀ {M h s t e r}, Mail.Run P Q M₀ M h → (.inl s, e) ∈ M.events →
      (M.events.map weight).sum + ∑ s, held s (M.server s) = owed h →
      P.serve s t (M.server s) e = some r →
        ((r.placed s).map weight).sum + held s r.state =
            weight (.inl s, e) + held s (M.server s) ∧
          owed (.server s t e (M.server s) r :: h) = owed h)
    (hclient : ∀ {M h k t x e r}, Mail.Run P Q M₀ M h → (.inr k, e) ∈ M.events →
      (M.events.map weight).sum + ∑ s, held s (M.server s) = owed h →
      P.client k t x (M.client k) e = some r →
        ((placedOfClient k r.2).map weight).sum + owed h =
          weight (.inr k, e) + owed (.client k t e (M.client k) r :: h))
    (h₀ : (M₀.events.map weight).sum + ∑ s, held s (M₀.server s) = owed [])
    (hr : Mail.Run P Q M₀ M h) :
    (M.events.map weight).sum + ∑ s, held s (M.server s) = owed h := by
  induction hr with
  | nil => exact h₀
  | @cons M M' h a hrun hstep hq ih =>
    cases hstep with
    | @serve s t e r mail hev ht hr =>
      have hmem : (.inl s, e) ∈ M.events := by rw [hev]; exact Multiset.mem_cons_self _ _
      obtain ⟨hbooks, howed⟩ := hserve hrun hmem ih hr
      have hsum := sum_held_update held M.server s r.state
      rw [hev, Multiset.map_cons, Multiset.sum_cons] at ih
      rw [Option.toList_some, List.singleton_append, howed, ← ih]
      simp only [Multiset.map_add, Multiset.sum_add, Multiset.map_coe, Multiset.sum_coe]
      rw [← sub_eq_zero] at hbooks hsum ⊢
      have hboth := congrArg₂ (· + ·) hbooks hsum
      simp only [add_zero] at hboth
      rw [← hboth]
      abel
    | @client k t x e r mail hev ht hr =>
      have hmem : (.inr k, e) ∈ M.events := by rw [hev]; exact Multiset.mem_cons_self _ _
      have hbooks := hclient hrun hmem ih hr
      rw [hev, Multiset.map_cons, Multiset.sum_cons] at ih
      rw [Option.toList_some, List.singleton_append, ← add_right_inj (weight (.inr k, e)), ← hbooks,
        ← ih]
      simp only [Multiset.map_add, Multiset.sum_add, Multiset.map_coe, Multiset.sum_coe]
      abel
    | wait ht => exact ih

end Balance

end CCSim
