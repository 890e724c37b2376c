/-
# Events in flight, with the times at which they are due

`Mail` forgets when an event may be handled.  Two of its properties depend on that: a handler goes on
with a lock after it has asked for the lock, and what a server schedules for itself comes back after
its delay.  A `TimedMail` keeps a time with every event in flight, and an event is not handled before
its time.  What else keeps an event waiting, messages, cores and locks, is left out here as well, so
an event may be handled at any later time.

A run of a `TimedMail` is a run of the `Mail` that forgets the times (`TimedMail.Run.mail`), so what
is known of that one can be used here.
-/
import CCSim.Lib.Mail

namespace CCSim

variable {S K E σ κ χ : Type}

/-! ## 1. The system -/

/-- The time, the local states, and the events in flight, each with the time at which it is due. -/
structure TimedMail (S K E σ κ : Type) where
  now : ℚ
  server : S → σ
  client : K → κ
  events : Multiset (ℚ × (S ⊕ K) × E)

/-- The events without their times. -/
def TimedMail.mail (T : TimedMail S K E σ κ) : Mail S K E σ κ :=
  ⟨T.now, T.server, T.client, T.events.map Prod.snd⟩

theorem TimedMail.mem_mail {T : TimedMail S K E σ κ} {d : ℚ} {x : (S ⊕ K) × E}
    (hx : (d, x) ∈ T.events) : x ∈ T.mail.events :=
  Multiset.mem_map_of_mem Prod.snd hx

/-- The earliest time at which something can be handled that is handed over at time `t`. -/
def Out.earliest (t : ℚ) : Out S K E → ℚ
  | .toServer _ _ => t
  | .toClient _ _ => t
  | .self delay _ => t + delay

/-- When the events may be due that a handler call at time `t` leaves behind.  A lock takes time. -/
inductive Outcome.Due (s : S) (t : ℚ) (r : Outcome S K E σ) : ℚ × (S ⊕ K) × E → Prop
  | out {o : Out S K E} {u : ℚ} (ho : o ∈ r.outs) (hu : o.earliest t ≤ u) :
      Due s t r (u, o.place s, o.event)
  | lock {m : Mode} {id : ℕ} {e : E} {u : ℚ} (hcont : r.cont = .lock m id e) (hu : t < u) :
      Due s t r (u, .inl s, e)
  | unlock {m : Mode} {id : ℕ} {e : E} {u : ℚ} (hcont : r.cont = .unlock m id (some e))
      (hu : t ≤ u) : Due s t r (u, .inl s, e)

variable [DecidableEq S] [DecidableEq K] {P : Program S K E σ κ χ}

/-- One step: an event that is due is handled, or time passes. -/
inductive TimedMail.Step (P : Program S K E σ κ χ) :
    TimedMail S K E σ κ → Option (Act S K E σ κ) → TimedMail S K E σ κ → Prop
  | serve {T : TimedMail S K E σ κ} {s : S} {d t : ℚ} {e : E} {r : Outcome S K E σ}
      {rest new : Multiset (ℚ × (S ⊕ K) × E)}
      (hev : T.events = (d, .inl s, e) ::ₘ rest) (ht : T.now ≤ t) (hd : d ≤ t)
      (hr : P.serve s t (T.server s) e = some r)
      (hnew : new.map Prod.snd = ((r.placed s : List _) : Multiset _))
      (hdue : ∀ x ∈ new, r.Due s t x) :
      Step P T (some (.server s t e (T.server s) r))
        ⟨t, Function.update T.server s r.state, T.client, rest + new⟩
  | client {T : TimedMail S K E σ κ} {k : K} {d t : ℚ} {x : χ} {e : E} {r : κ × List (Out S K E)}
      {rest new : Multiset (ℚ × (S ⊕ K) × E)}
      (hev : T.events = (d, .inr k, e) ::ₘ rest) (ht : T.now ≤ t) (hd : d ≤ t)
      (hr : P.client k t x (T.client k) e = some r)
      (hnew : new.map Prod.snd = ((placedOfClient k r.2 : List _) : Multiset _)) :
      Step P T (some (.client k t e (T.client k) r))
        ⟨t, T.server, Function.update T.client k r.1, rest + new⟩
  | wait {T : TimedMail S K E σ κ} {t : ℚ} (ht : T.now ≤ t) : Step P T none { T with now := t }

/-- A run, with its handler calls, the latest first. -/
inductive TimedMail.Run (P : Program S K E σ κ χ) (T₀ : TimedMail S K E σ κ) :
    TimedMail S K E σ κ → List (Act S K E σ κ) → Prop
  | nil : Run P T₀ T₀ []
  | cons {T T' : TimedMail S K E σ κ} {h : List (Act S K E σ κ)} {a : Option (Act S K E σ κ)}
      (hrun : Run P T₀ T h) (hstep : TimedMail.Step P T a T') : Run P T₀ T' (a.toList ++ h)

variable {T₀ T T' : TimedMail S K E σ κ} {h : List (Act S K E σ κ)} {a : Option (Act S K E σ κ)}

/-! ## 2. Forgetting the times -/

theorem TimedMail.Step.mail (hs : TimedMail.Step P T a T') : Mail.Step P T.mail a T'.mail := by
  cases hs with
  | @serve s d t e r rest new hev ht hd hr hnew hdue =>
    have hmail : T.mail.events = (.inl s, e) ::ₘ rest.map Prod.snd := by
      rw [TimedMail.mail, hev, Multiset.map_cons]
    have := Mail.Step.serve (P := P) hmail ht hr
    rwa [← hnew, ← Multiset.map_add] at this
  | @client k d t x e r rest new hev ht hd hr hnew =>
    have hmail : T.mail.events = (.inr k, e) ::ₘ rest.map Prod.snd := by
      rw [TimedMail.mail, hev, Multiset.map_cons]
    have := Mail.Step.client (P := P) hmail ht hr
    rwa [← hnew, ← Multiset.map_add] at this
  | wait ht => exact .wait ht

/-- **A run with times is a run.** -/
theorem TimedMail.Run.mail (hr : TimedMail.Run P T₀ T h) :
    Mail.Run P (fun _ => True) T₀.mail T.mail h := by
  induction hr with
  | nil => exact .nil
  | cons _ hstep ih => exact .cons ih hstep.mail fun _ _ => trivial

/-- A step that forgets the times, of an event that is due, is a step.  The time may have passed up
to `u` before. -/
theorem TimedMail.Step.of_serve {M' : Mail S K E σ κ} {s : S} {d t u : ℚ} {e : E} {st : σ}
    {r : Outcome S K E σ} {rest new : Multiset (ℚ × (S ⊕ K) × E)}
    (hs : Mail.Step P { T.mail with now := u } (some (.server s t e st r)) M') (hu : T.now ≤ u)
    (hev : T.events = (d, .inl s, e) ::ₘ rest) (hd : d ≤ t)
    (hnew : new.map Prod.snd = ((r.placed s : List _) : Multiset _))
    (hdue : ∀ x ∈ new, r.Due s t x) :
    ∃ T', TimedMail.Step P T (some (.server s t e st r)) T' ∧ T'.mail = M' ∧
      T'.events = rest + new := by
  cases hs with
  | @serve _ _ _ _ mail hmail ht hr =>
    refine ⟨_, .serve hev (hu.trans ht) hd hr hnew hdue, ?_, rfl⟩
    have hrest : T.mail.events = (.inl s, e) ::ₘ rest.map Prod.snd := by
      rw [TimedMail.mail, hev, Multiset.map_cons]
    rw [← (Multiset.cons_inj_right _).mp (hrest.symm.trans hmail), ← hnew, ← Multiset.map_add]
    rfl

theorem TimedMail.Step.of_client {M' : Mail S K E σ κ} {k : K} {d t u : ℚ} {e : E} {st : κ}
    {r : κ × List (Out S K E)} {rest new : Multiset (ℚ × (S ⊕ K) × E)}
    (hs : Mail.Step P { T.mail with now := u } (some (.client k t e st r)) M') (hu : T.now ≤ u)
    (hev : T.events = (d, .inr k, e) ::ₘ rest) (hd : d ≤ t)
    (hnew : new.map Prod.snd = ((placedOfClient k r.2 : List _) : Multiset _)) :
    ∃ T', TimedMail.Step P T (some (.client k t e st r)) T' ∧ T'.mail = M' ∧
      T'.events = rest + new := by
  cases hs with
  | @client _ _ x _ _ mail hmail ht hr =>
    refine ⟨_, .client hev (hu.trans ht) hd hr hnew, ?_, rfl⟩
    have hrest : T.mail.events = (.inr k, e) ::ₘ rest.map Prod.snd := by
      rw [TimedMail.mail, hev, Multiset.map_cons]
    rw [← (Multiset.cons_inj_right _).mp (hrest.symm.trans hmail), ← hnew, ← Multiset.map_add]
    rfl

/-- Every handler call of a run is a step from where the run was before it. -/
theorem TimedMail.Run.before {l₁ l₂ : List (Act S K E σ κ)} {b : Act S K E σ κ}
    (hr : TimedMail.Run P T₀ T h) (hh : h = l₂ ++ b :: l₁) :
    ∃ N N', TimedMail.Run P T₀ N l₁ ∧ TimedMail.Step P N (some b) N' := by
  induction hr generalizing l₂ with
  | nil => simp at hh
  | @cons T T' h a hrun hstep ih =>
    cases a with
    | none => exact ih hh
    | some a =>
      cases l₂ with
      | nil =>
        obtain ⟨rfl, rfl⟩ := List.cons.inj hh
        exact ⟨_, _, hrun, hstep⟩
      | cons _ l₂ => exact ih (List.cons.inj hh).2

end CCSim
