/-
# Task pools: what a server's processor may do next, with the scheduling left out

A processor with queues, cores and locks decides only WHEN a piece of work runs.  What it may
run at all is simpler, and this file says it without the processor: a pool of tasks, each
addressed to a server or a client, and a table of held locks for every server.  A task is

* a `pending` event, which its server may handle at any time from now on;
* a `request` for a lock, which may be granted whenever the lock can be taken, and whose event
  is then handled with the lock held;
* a `release`, which gives the lock back and, if it carries an event, handles that event in the
  same instant;
* an event for a client.

Handling an event is one call of the handler of a `Program`; the outcome's messages, and the
lock operation it ends with, become new tasks.  Every order of these steps is a run.  A
processor that never invents work and respects its locks refines this system, whatever its
cores and queues do, so an invariant proved here holds under all of them.

The general results are `Run.induction` and, for a program that releases exactly the locks it
was granted (`Disciplined`), mutual exclusion (`Exclusive`).
-/
import Mathlib.Data.Multiset.AddSub
import Mathlib.Data.Multiset.Count
import Mathlib.Data.Multiset.MapFold
import Mathlib.Data.Rat.Init
import Mathlib.Algebra.Order.Field.Rat
import Mathlib.Logic.Relation
import Mathlib.Tactic.Linarith

namespace CCSim

/-! ## 1. Handlers -/

/-- The three ways of taking a lock: a mutex, or a read-write lock from either side. -/
inductive Mode
  | mutex
  | read
  | write
  deriving DecidableEq, Repr

/-- How a handler ends: it is done, it asks for a lock, or it gives one back.  In the last two
cases the work goes on in the event named. -/
inductive Cont (E : Type)
  | done
  | lock (m : Mode) (id : ℕ) (e : E)
  | unlock (m : Mode) (id : ℕ) (e : Option E)
  deriving DecidableEq, Repr

/-- What a handler hands over while it runs: a message, or an event for itself after a delay. -/
inductive Out (S K E : Type)
  | toServer (s : S) (e : E)
  | toClient (k : K) (e : E)
  | self (delay : ℚ) (e : E)
  deriving DecidableEq, Repr

/-- The event a handler handed over. -/
def Out.event {S K E : Type} : Out S K E → E
  | .toServer _ e => e
  | .toClient _ e => e
  | .self _ e => e

/-- The result of one handler call: the new local state, what was handed over, in that order,
whether the handler may take no time at all, and how it ends. -/
structure Outcome (S K E σ : Type) where
  state : σ
  outs : List (Out S K E) := []
  noTime : Bool := false
  cont : Cont E := .done

/-- The handlers of servers and clients.  `none` is a failed assertion.  A client's handler
gets a decision of its workload besides the event. -/
structure Program (S K E σ κ χ : Type) where
  serve : S → ℚ → σ → E → Option (Outcome S K E σ)
  client : K → ℚ → χ → κ → E → Option (κ × List (Out S K E))

/-! ## 2. Locks -/

/-- Which locks of a server are held: mutexes, and for read-write locks the number of readers
and the write flag. -/
structure LockTable where
  mutex : ℕ → Bool
  rw : ℕ → ℕ × Bool

/-- The table after a lock is taken, if it can be. -/
def LockTable.grant? (tb : LockTable) : Mode → ℕ → Option LockTable
  | .mutex, id =>
    if tb.mutex id then none else some { tb with mutex := Function.update tb.mutex id true }
  | .read, id =>
    if (tb.rw id).2 && (tb.rw id).1 == 0 then none
    else some { tb with rw := Function.update tb.rw id ((tb.rw id).1 + 1,
      if (tb.rw id).1 + 1 = 1 then true else (tb.rw id).2) }
  | .write, id =>
    if (tb.rw id).2 then none
    else some { tb with rw := Function.update tb.rw id ((tb.rw id).1, true) }

/-- The table after a lock is given back, if it was held in that mode. -/
def LockTable.release? (tb : LockTable) : Mode → ℕ → Option LockTable
  | .mutex, id =>
    if tb.mutex id then some { tb with mutex := Function.update tb.mutex id false } else none
  | .read, id =>
    if (tb.rw id).1 = 0 then none
    else if (tb.rw id).1 - 1 = 0 then
      if (tb.rw id).2 then some { tb with rw := Function.update tb.rw id (0, false) } else none
    else some { tb with rw := Function.update tb.rw id ((tb.rw id).1 - 1, (tb.rw id).2) }
  | .write, id =>
    if (tb.rw id).2 then some { tb with rw := Function.update tb.rw id ((tb.rw id).1, false) }
    else none

/-- No lock is held. -/
def LockTable.free : LockTable := ⟨fun _ => false, fun _ => (0, false)⟩

/-! ## 3. The system -/

/-- A piece of work nobody has done yet.  A release also carries the earliest time at which it
may happen. -/
inductive Task (S K E : Type)
  | pending (s : S) (e : E)
  | request (s : S) (m : Mode) (id : ℕ) (e : E)
  | release (s : S) (m : Mode) (id : ℕ) (e : Option E) (ready : ℚ)
  | client (k : K) (e : E)

/-- A configuration: the time, the local states, the held locks and the pool. -/
structure Config (S K E σ κ : Type) where
  now : ℚ
  server : S → σ
  client : K → κ
  locks : S → LockTable
  pool : Multiset (Task S K E)

/-- One handler call, with the state it started from and its result. -/
inductive Act (S K E σ κ : Type)
  | server (s : S) (t : ℚ) (e : E) (before : σ) (r : Outcome S K E σ)
  | client (k : K) (t : ℚ) (e : E) (before : κ) (r : κ × List (Out S K E))

/-- What a condition on a step may look at: the local states before it, which events are
waiting to be handled for the first time, and the handler calls made so far. -/
structure View (S K E σ κ : Type) where
  server : S → σ
  client : K → κ
  pending : S → E → Prop
  past : List (Act S K E σ κ)

variable {S K E σ κ χ : Type}

/-- The view of a configuration reached by the handler calls `h`. -/
def Config.view (A : Config S K E σ κ) (h : List (Act S K E σ κ)) : View S K E σ κ :=
  ⟨A.server, A.client, fun s e => .pending s e ∈ A.pool, h⟩

/-- The task a server's output becomes. -/
def Out.taskOf (s : S) : Out S K E → Task S K E
  | .toServer s' e => .pending s' e
  | .toClient k e => .client k e
  | .self _ e => .pending s e

/-- The task a client's output becomes. -/
def Out.taskOfClient (k : K) : Out S K E → Task S K E
  | .toServer s e => .pending s e
  | .toClient k' e => .client k' e
  | .self _ e => .client k e

/-- The task a handler's end leaves behind. -/
def Cont.tasks (s : S) (u : ℚ) : Cont E → List (Task S K E)
  | .done => []
  | .lock m id e => [.request s m id e]
  | .unlock m id e => [.release s m id e u]

/-- All tasks an outcome leaves behind, a release being due at `u`. -/
def Outcome.tasks (s : S) (u : ℚ) (r : Outcome S K E σ) : List (Task S K E) :=
  r.outs.map (Out.taskOf s) ++ r.cont.tasks s u

/-- The tasks left behind by a handler call at time `t`.  A handler that takes time makes its
release due strictly later. -/
def Spawns (s : S) (t : ℚ) (r : Outcome S K E σ) (new : List (Task S K E)) : Prop :=
  ∃ u, t ≤ u ∧ (r.noTime = false → t < u) ∧ new = r.tasks s u

/-- `Ready s t tb x e tb'`: at time `t`, with locks `tb`, the server `s` may take the task `x`
and handle the event `e` with locks `tb'`. -/
inductive Ready (s : S) (t : ℚ) (tb : LockTable) : Task S K E → E → LockTable → Prop
  | pending (e : E) : Ready s t tb (.pending s e) e tb
  | request (m : Mode) (id : ℕ) (e : E) (tb' : LockTable) (h : tb.grant? m id = some tb') :
      Ready s t tb (.request s m id e) e tb'
  | release (m : Mode) (id : ℕ) (e : E) (ready : ℚ) (tb' : LockTable) (hr : ready ≤ t)
      (h : tb.release? m id = some tb') : Ready s t tb (.release s m id (some e) ready) e tb'

/-- The server a task is for, and the event it carries. -/
def Task.event? : Task S K E → Option (S × E)
  | .pending s e => some (s, e)
  | .request s _ _ e => some (s, e)
  | .release s _ _ e _ => e.map fun e => (s, e)
  | .client _ _ => none

/-- The task an event is taken from carries it. -/
theorem Ready.event? {s : S} {t : ℚ} {tb tb' : LockTable} {x : Task S K E} {e : E}
    (h : Ready s t tb x e tb') : x.event? = some (s, e) := by
  cases h <;> rfl

/-- One step: a server handles an event, a lock is given back with nothing left to do, a client
handles an event, or time passes. -/
inductive Step [DecidableEq S] [DecidableEq K] (P : Program S K E σ κ χ) :
    Config S K E σ κ → Option (Act S K E σ κ) → Config S K E σ κ → Prop
  | serve {A : Config S K E σ κ} {s : S} {t : ℚ} {x : Task S K E} {e : E} {tb : LockTable}
      {r : Outcome S K E σ} {rest : Multiset (Task S K E)} {new : List (Task S K E)}
      (hpool : A.pool = x ::ₘ rest) (ht : A.now ≤ t) (hx : Ready s t (A.locks s) x e tb)
      (hr : P.serve s t (A.server s) e = some r) (hnew : Spawns s t r new) :
      Step P A (some (.server s t e (A.server s) r))
        { A with now := t, server := Function.update A.server s r.state,
                 locks := Function.update A.locks s tb, pool := rest + (new : Multiset _) }
  | release {A : Config S K E σ κ} {s : S} {t ready : ℚ} {m : Mode} {id : ℕ} {tb : LockTable}
      {rest : Multiset (Task S K E)} (hpool : A.pool = .release s m id none ready ::ₘ rest)
      (ht : A.now ≤ t) (hready : ready ≤ t) (h : (A.locks s).release? m id = some tb) :
      Step P A none { A with now := t, locks := Function.update A.locks s tb, pool := rest }
  | client {A : Config S K E σ κ} {k : K} {t : ℚ} {e : E} {c : χ}
      {r : κ × List (Out S K E)} {rest : Multiset (Task S K E)}
      (hpool : A.pool = .client k e ::ₘ rest) (ht : A.now ≤ t)
      (hr : P.client k t c (A.client k) e = some r) :
      Step P A (some (.client k t e (A.client k) r))
        { A with now := t, client := Function.update A.client k r.1,
                 pool := rest + ((r.2.map (Out.taskOfClient k) : List (Task S K E)) :
                   Multiset (Task S K E)) }
  | wait {A : Config S K E σ κ} {t : ℚ} (ht : A.now ≤ t) : Step P A none { A with now := t }

/-- A condition on the handler calls of a run. -/
abbrev Cond (S K E σ κ : Type) := View S K E σ κ → Act S K E σ κ → Prop

section Runs

variable [DecidableEq S] [DecidableEq K] {P : Program S K E σ κ χ}
  {A₀ A A' : Config S K E σ κ} {h : List (Act S K E σ κ)} {a : Option (Act S K E σ κ)}

/-- `Run P C A₀ A h`: a run from `A₀` to `A` whose handler calls are `h`, the latest first, each
of which met the condition `C` in the configuration it was made in. -/
inductive Run (P : Program S K E σ κ χ) (C : Cond S K E σ κ) (A₀ : Config S K E σ κ) :
    Config S K E σ κ → List (Act S K E σ κ) → Prop
  | nil : Run P C A₀ A₀ []
  | cons {A A' : Config S K E σ κ} {h : List (Act S K E σ κ)} {a : Option (Act S K E σ κ)}
      (hrun : Run P C A₀ A h) (hstep : Step P A a A') (hc : ∀ x ∈ a, C (A.view h) x) :
      Run P C A₀ A' (a.toList ++ h)

/-- Every handler call of a run is a step from where the run was before it. -/
theorem Run.before {C : Cond S K E σ κ} {h l₁ l₂ : List (Act S K E σ κ)} {b : Act S K E σ κ}
    (hr : Run P C A₀ A h) (hh : h = l₂ ++ b :: l₁) :
    ∃ N N', Run P C A₀ N l₁ ∧ Step P N (some b) N' := by
  induction hr generalizing l₂ with
  | nil => simp at hh
  | @cons A A' h a hrun hstep hc ih =>
    cases a with
    | none => exact ih hh
    | some a =>
      cases l₂ with
      | nil =>
        obtain ⟨rfl, rfl⟩ := List.cons.inj hh
        exact ⟨_, _, hrun, hstep⟩
      | cons _ l₂ => exact ih (List.cons.inj hh).2

/-- **The invariant rule.**  What holds at the start and survives every step that meets the
condition holds at the end of every such run. -/
theorem Run.induction {C : Cond S K E σ κ} {I : Config S K E σ κ → List (Act S K E σ κ) → Prop}
    (h0 : I A₀ [])
    (hs : ∀ {A A' h a}, Run P C A₀ A h → I A h → Step P A a A' →
      (∀ x ∈ a, C (A.view h) x) → I A' (a.toList ++ h))
    (hr : Run P C A₀ A h) : I A h := by
  induction hr with
  | nil => exact h0
  | cons hrun hstep hc ih => exact hs hrun ih hstep hc

/-- A run that meets a condition meets every weaker one. -/
theorem Run.mono {C C' : Cond S K E σ κ} (hr : Run P C A₀ A h) (hC : ∀ v x, C v x → C' v x) :
    Run P C' A₀ A h := by
  induction hr with
  | nil => exact .nil
  | cons _ hstep hc ih => exact .cons ih hstep fun x hx => hC _ _ (hc x hx)

/-- Time never runs backwards in a step. -/
theorem Step.now_le (hs : Step P A a A') : A.now ≤ A'.now := by
  cases hs <;> assumption

/-- A step without a handler call changes nothing a condition looks at. -/
theorem Step.silent_view {past : List (Act S K E σ κ)} (hs : Step P A none A') :
    A'.view past = A.view past := by
  cases hs with
  | wait => rfl
  | release hpool =>
    simp only [Config.view, View.mk.injEq, true_and, and_true, hpool]
    funext s e
    simp

/-- Steps without a handler call can be added to a run. -/
theorem Run.silent {C : Cond S K E σ κ} (hr : Run P C A₀ A h)
    (hs : Relation.ReflTransGen (fun A A' => Step P A none A') A A') : Run P C A₀ A' h := by
  induction hs with
  | refl => exact hr
  | tail _ hs ih => exact .cons ih hs (by simp)

/-- The handler calls of a run are calls of the program. -/
theorem Run.served {C : Cond S K E σ κ} (hr : Run P C A₀ A h) {s : S} {t : ℚ} {e : E} {st : σ}
    {r : Outcome S K E σ} (hm : .server s t e st r ∈ h) : P.serve s t st e = some r := by
  induction hr with
  | nil => cases hm
  | cons _ hstep _ ih =>
    rcases List.mem_append.mp hm with hm | hm
    · cases hstep with
      | serve _ _ _ hr =>
        cases List.mem_singleton.mp hm
        exact hr
      | release => cases hm
      | client => cases List.mem_singleton.mp hm
      | wait => cases hm
    · exact ih hm

/-- Every handler call met a condition that looks at the calls before it. -/
def EachMeets (C : List (Act S K E σ κ) → Act S K E σ κ → Prop) : List (Act S K E σ κ) → Prop
  | [] => True
  | x :: h => C h x ∧ EachMeets C h

omit [DecidableEq S] [DecidableEq K] in
theorem EachMeets.of_forall {C : List (Act S K E σ κ) → Act S K E σ κ → Prop}
    (hC : ∀ x ∈ h, ∀ past, C past x) : EachMeets C h := by
  induction h with
  | nil => trivial
  | cons x h ih =>
    exact ⟨hC x List.mem_cons_self h, ih fun y hy => hC y (List.mem_cons_of_mem x hy)⟩

/-- The condition of a run, if it looks at the past only, was met by every handler call. -/
theorem Run.eachMeets {C : List (Act S K E σ κ) → Act S K E σ κ → Prop}
    (hr : Run P (fun v => C v.past) A₀ A h) : EachMeets C h := by
  induction hr with
  | nil => trivial
  | @cons A A' h a _ _ hc ih =>
    cases a with
    | none => exact ih
    | some x => exact ⟨hc x rfl, ih⟩

theorem Run.now_le {C : Cond S K E σ κ} (hr : Run P C A₀ A h) : A₀.now ≤ A.now :=
  Run.induction (I := fun A _ => A₀.now ≤ A.now) le_rfl (fun _ ih hs _ => ih.trans hs.now_le) hr

end Runs

/-! ## 4. Membership in the pool after a step -/

theorem Outcome.mem_tasks {s : S} {u : ℚ} {x : Task S K E} {r : Outcome S K E σ} :
    x ∈ r.tasks s u ↔ (∃ o ∈ r.outs, x = o.taskOf s) ∨
      (∃ m id e, r.cont = .lock m id e ∧ x = .request s m id e) ∨
      ∃ m id e, r.cont = .unlock m id e ∧ x = .release s m id e u := by
  rw [Outcome.tasks, List.mem_append, List.mem_map]
  cases r.cont <;> simp [Cont.tasks, eq_comm]

/-- A pending event an outcome leaves behind is one of its outputs. -/
theorem Outcome.pending_mem_tasks {s s' : S} {u : ℚ} {e : E} {r : Outcome S K E σ} :
    Task.pending s' e ∈ r.tasks s u ↔
      .toServer s' e ∈ r.outs ∨ (s' = s ∧ ∃ d, .self d e ∈ r.outs) := by
  rw [Outcome.mem_tasks]
  constructor
  · rintro (⟨o, ho, hx⟩ | ⟨_, _, _, _, hx⟩ | ⟨_, _, _, _, hx⟩)
    · cases o <;> simp only [Out.taskOf, Task.pending.injEq, reduceCtorEq] at hx
      · obtain ⟨rfl, rfl⟩ := hx; exact .inl ho
      · obtain ⟨rfl, rfl⟩ := hx; exact .inr ⟨rfl, _, ho⟩
    · cases hx
    · cases hx
  · rintro (h | ⟨rfl, d, h⟩)
    · exact .inl ⟨_, h, rfl⟩
    · exact .inl ⟨_, h, rfl⟩

theorem Outcome.client_mem_tasks {s : S} {k : K} {u : ℚ} {e : E} {r : Outcome S K E σ} :
    Task.client k e ∈ r.tasks s u ↔ .toClient k e ∈ r.outs := by
  rw [Outcome.mem_tasks]
  constructor
  · rintro (⟨o, ho, hx⟩ | ⟨_, _, _, _, hx⟩ | ⟨_, _, _, _, hx⟩)
    · cases o <;> simp only [Out.taskOf, Task.client.injEq, reduceCtorEq] at hx
      obtain ⟨rfl, rfl⟩ := hx; exact ho
    · cases hx
    · cases hx
  · exact fun h => .inl ⟨_, h, rfl⟩

theorem Outcome.request_mem_tasks {s s' : S} {m : Mode} {id : ℕ} {u : ℚ} {e : E}
    {r : Outcome S K E σ} :
    Task.request s' m id e ∈ r.tasks s u ↔ s' = s ∧ r.cont = .lock m id e := by
  rw [Outcome.mem_tasks]
  constructor
  · rintro (⟨o, ho, hx⟩ | ⟨_, _, _, hc, hx⟩ | ⟨_, _, _, _, hx⟩)
    · cases o <;> simp [Out.taskOf] at hx
    · simp only [Task.request.injEq] at hx
      obtain ⟨rfl, rfl, rfl, rfl⟩ := hx
      exact ⟨rfl, hc⟩
    · cases hx
  · rintro ⟨rfl, hc⟩
    exact .inr (.inl ⟨_, _, _, hc, rfl⟩)

theorem Outcome.release_mem_tasks {s s' : S} {m : Mode} {id : ℕ} {u u' : ℚ} {e : Option E}
    {r : Outcome S K E σ} :
    Task.release s' m id e u' ∈ r.tasks s u ↔ s' = s ∧ u' = u ∧ r.cont = .unlock m id e := by
  rw [Outcome.mem_tasks]
  constructor
  · rintro (⟨o, ho, hx⟩ | ⟨_, _, _, _, hx⟩ | ⟨_, _, _, hc, hx⟩)
    · cases o <;> simp [Out.taskOf] at hx
    · cases hx
    · simp only [Task.release.injEq] at hx
      obtain ⟨rfl, rfl, rfl, rfl, rfl⟩ := hx
      exact ⟨rfl, rfl, hc⟩
  · rintro ⟨rfl, rfl, hc⟩
    exact .inr (.inr ⟨_, _, _, hc, rfl⟩)

/-! ## 5. Mutual exclusion

A handler knows which lock it was granted only through the event it handles.  The kind of an
event names that lock; a program is disciplined when an event that runs with a lock is only ever
asked for through that lock, gives it back, and nobody else does. -/

/-- When an event is handled: as it arrives, once a lock has been granted, or as a lock is given
back. -/
inductive Kind
  | plain
  | locked (m : Mode) (id : ℕ)
  | unlocked (m : Mode) (id : ℕ)
  deriving DecidableEq

/-- A program whose handlers give back exactly the lock they were granted. -/
structure Disciplined (P : Program S K E σ κ χ) (kind : E → Kind) : Prop where
  lock : ∀ {s t st e r m id e'}, P.serve s t st e = some r → r.cont = .lock m id e' →
    kind e' = .locked m id
  unlock : ∀ {s t st e r m id e'}, P.serve s t st e = some r → r.cont = .unlock m id e' →
    kind e = .locked m id ∧ ∀ x ∈ e', kind x = .unlocked m id
  held : ∀ {s t st e r m id}, P.serve s t st e = some r → kind e = .locked m id →
    ∃ e', r.cont = .unlock m id e'
  outs : ∀ {s t st e r o}, P.serve s t st e = some r → o ∈ r.outs → kind o.event = .plain
  client : ∀ {k t c st e r o}, P.client k t c st e = some r → o ∈ r.2 → kind o.event = .plain

/-- The lock under which an event of this kind runs. -/
def Kind.held : Kind → Option (Mode × ℕ)
  | .plain => none
  | .locked m id => some (m, id)
  | .unlocked _ _ => none

/-- The event in which the work of a handler goes on. -/
def Cont.event? : Cont E → Option E
  | .done => none
  | .lock _ _ e => some e
  | .unlock _ _ e => e

/-- The end suits a handler that runs with this lock, or with none: it gives the lock back, and
otherwise may ask for one. -/
def Cont.Suits (kind : E → Kind) : Option (Mode × ℕ) → Cont E → Prop
  | none, .done => True
  | none, .lock m id e => kind e = .locked m id
  | some (m, id), .unlock m' id' e => m' = m ∧ id' = id ∧ ∀ x ∈ e, kind x = .unlocked m id
  | _, _ => False

/-- A program is disciplined when every handler ends in a way that suits its event. -/
theorem Disciplined.of_suits {P : Program S K E σ κ χ} {kind : E → Kind}
    (hs : ∀ {s t st e r}, P.serve s t st e = some r → r.cont.Suits kind (kind e).held)
    (ho : ∀ {s t st e r o}, P.serve s t st e = some r → o ∈ r.outs → kind o.event = .plain)
    (hc : ∀ {k t c st e r o}, P.client k t c st e = some r → o ∈ r.2 → kind o.event = .plain) :
    Disciplined P kind where
  lock {s t st e r m id e'} hr hl := by
    have h := hs hr
    rw [hl] at h
    unfold Cont.Suits at h
    split at h <;> simp_all
  unlock {s t st e r m id e'} hr hu := by
    have h := hs hr
    rw [hu] at h
    cases hk : kind e with
    | locked m' id' =>
      rw [hk] at h
      obtain ⟨rfl, rfl, hx⟩ := h
      exact ⟨rfl, hx⟩
    | plain => rw [hk] at h; exact h.elim
    | unlocked => rw [hk] at h; exact h.elim
  held {s t st e r m id} hr hk := by
    have h := hs hr
    rw [hk] at h
    cases hc : r.cont with
    | unlock m' id' e' =>
      rw [hc] at h
      obtain ⟨rfl, rfl, -⟩ := h
      exact ⟨e', rfl⟩
    | done => rw [hc] at h; exact h.elim
    | lock => rw [hc] at h; exact h.elim
  outs := ho
  client := hc

/-- Every task carries an event of the right kind for its place. -/
def WellPlaced (kind : E → Kind) : Task S K E → Prop
  | .pending _ e => kind e = .plain
  | .request _ m id e => kind e = .locked m id
  | .release _ m id e _ => ∀ x ∈ e, kind x = .unlocked m id
  | .client _ e => kind e = .plain

/-- The task will give back the mutex `id` of `s`. -/
def Task.Frees (s : S) (id : ℕ) : Task S K E → Prop
  | .release s' .mutex id' _ _ => s' = s ∧ id' = id
  | _ => False

instance [DecidableEq S] (s : S) (id : ℕ) : DecidablePred (Task.Frees (K := K) (E := E) s id)
  | .release _ .mutex _ _ _ => inferInstanceAs (Decidable (_ ∧ _))
  | .release _ .read _ _ _ => .isFalse fun h => h
  | .release _ .write _ _ _ => .isFalse fun h => h
  | .pending _ _ => .isFalse fun h => h
  | .request _ _ _ _ => .isFalse fun h => h
  | .client _ _ => .isFalse fun h => h

/-- Granting a lock changes at most the mutex granted. -/
theorem LockTable.grant?_mutex {tb tb' : LockTable} {m : Mode} {id : ℕ}
    (h : tb.grant? m id = some tb') (i : ℕ) :
    if m = .mutex ∧ i = id then tb.mutex i = false ∧ tb'.mutex i = true
    else tb'.mutex i = tb.mutex i := by
  cases m <;> simp only [LockTable.grant?] at h <;> split at h <;>
    simp only [Option.some.injEq, reduceCtorEq] at h <;> subst h
  · by_cases hi : i = id
    · subst hi; simp_all
    · simp [hi]
  · simp
  · simp

/-- Giving a lock back changes at most the mutex given back. -/
theorem LockTable.release?_mutex {tb tb' : LockTable} {m : Mode} {id : ℕ}
    (h : tb.release? m id = some tb') (i : ℕ) :
    if m = .mutex ∧ i = id then tb.mutex i = true ∧ tb'.mutex i = false
    else tb'.mutex i = tb.mutex i := by
  cases m <;> simp only [LockTable.release?] at h
  · split at h <;> simp only [Option.some.injEq, reduceCtorEq] at h
    subst h
    by_cases hi : i = id
    · subst hi; simp_all
    · simp [hi]
  · repeat' split at h
    all_goals simp only [Option.some.injEq, reduceCtorEq] at h
    all_goals subst h; simp
  · split at h <;> simp only [Option.some.injEq, reduceCtorEq] at h
    subst h; simp

section Exclusive

variable [DecidableEq S]

/-- **Mutual exclusion.**  A held mutex has exactly one release outstanding, a free one none;
and every task is well placed. -/
structure Exclusive (kind : E → Kind) (A : Config S K E σ κ) : Prop where
  placed : ∀ x ∈ A.pool, WellPlaced kind x
  count : ∀ s id, A.pool.countP (Task.Frees s id) = if (A.locks s).mutex id then 1 else 0

omit [DecidableEq S] in
/-- An event that runs with a mutex is handled when the mutex has been granted. -/
theorem Ready.granted {kind : E → Kind} {s : S} {t : ℚ} {tb tb' : LockTable} {x : Task S K E}
    {e : E} (h : Ready s t tb x e tb') (hx : WellPlaced kind x) {id : ℕ}
    (he : kind e = .locked .mutex id) : tb.mutex id = false ∧ tb'.mutex id = true := by
  cases h with
  | pending => cases he.symm.trans hx
  | request m id' _ _ hg =>
    cases he.symm.trans hx
    simpa using LockTable.grant?_mutex hg id
  | release => cases he.symm.trans (hx e rfl)

omit [DecidableEq S] in
/-- An event that runs when a lock is given back comes from the release of that lock. -/
theorem Ready.released {kind : E → Kind} {s : S} {t : ℚ} {tb tb' : LockTable} {x : Task S K E}
    {e : E} (h : Ready s t tb x e tb') (hx : WellPlaced kind x) {m : Mode} {id : ℕ}
    (he : kind e = .unlocked m id) : ∃ ready, x = .release s m id (some e) ready := by
  cases h with
  | pending => cases he.symm.trans hx
  | request => cases he.symm.trans hx
  | release m' id' _ ready =>
    cases he.symm.trans (hx e rfl)
    exact ⟨ready, rfl⟩

omit [DecidableEq S] in
/-- A mutex that is free after a task has been taken was free before, or has been given back. -/
theorem Ready.mutex_free {s : S} {t : ℚ} {tb tb' : LockTable} {x : Task S K E} {e : E}
    (h : Ready s t tb x e tb') {id : ℕ} (hf : tb'.mutex id = false) :
    tb.mutex id = false ∨ ∃ ready ≤ t, x = .release s .mutex id (some e) ready := by
  cases h with
  | pending => exact .inl hf
  | request m id' _ _ hg =>
    have := LockTable.grant?_mutex hg id
    split at this
    · exact .inl this.1
    · exact .inl (this ▸ hf)
  | release m id' _ ready _ hr hg =>
    have := LockTable.release?_mutex hg id
    split at this <;> rename_i hc
    · obtain ⟨rfl, rfl⟩ := hc
      exact .inr ⟨ready, hr, rfl⟩
    · exact .inl (this ▸ hf)

/-- What taking a task does to a mutex: it is given back by its release, and taken by an event
that runs under it. -/
theorem Ready.count {kind : E → Kind} {s : S} {t : ℚ} {tb tb' : LockTable}
    {x : Task S K E} {e : E} (h : Ready s t tb x e tb') (hx : WellPlaced kind x) (id : ℕ) :
    (if tb'.mutex id then 1 else 0) + (if x.Frees s id then 1 else 0) =
      (if tb.mutex id then 1 else 0) + (if kind e = .locked .mutex id then 1 else 0) := by
  cases h with
  | pending =>
    have he : kind e = .plain := hx
    simp [he, Task.Frees]
  | request m id' _ _ hg =>
    have he : kind e = .locked m id' := hx
    have := LockTable.grant?_mutex hg id
    by_cases hc : m = .mutex ∧ id = id'
    · rw [if_pos hc] at this
      obtain ⟨rfl, rfl⟩ := hc
      simp [he, this, Task.Frees]
    · rw [if_neg hc] at this
      have : ¬(m = .mutex ∧ id' = id) := fun h => hc ⟨h.1, h.2.symm⟩
      simp [*, Task.Frees]
  | release m id' _ ready _ _ hg =>
    have he : kind e = .unlocked m id' := hx e rfl
    have := LockTable.release?_mutex hg id
    by_cases hc : m = .mutex ∧ id = id'
    · rw [if_pos hc] at this
      obtain ⟨rfl, rfl⟩ := hc
      simp [he, this, Task.Frees]
    · rw [if_neg hc] at this
      have hf : ¬(Task.release s m id' (some e) ready : Task S K E).Frees s id := by
        cases m <;> simp only [Task.Frees, not_false_eq_true, true_and]
        exact fun h => hc ⟨rfl, h.symm⟩
      simp [he, this, hf]

omit [DecidableEq S] in
theorem Ready.not_frees {s s' : S} {t : ℚ} {tb tb' : LockTable} {x : Task S K E} {e : E}
    (h : Ready s t tb x e tb') (hs : s' ≠ s) (id : ℕ) : ¬x.Frees s' id := by
  cases h with
  | pending => exact fun h => h
  | request => exact fun h => h
  | release m => cases m <;> first | exact fun h => h | exact fun h => hs h.1.symm

theorem countP_frees_map {f : Out S K E → Task S K E} (hf : ∀ o s id, ¬(f o).Frees s id) (s : S)
    (id : ℕ) (l : List (Out S K E)) :
    ((l.map f : List (Task S K E)) : Multiset (Task S K E)).countP (Task.Frees s id) = 0 := by
  rw [Multiset.countP_eq_zero]
  intro x hx
  obtain ⟨o, -, rfl⟩ := List.mem_map.mp (Multiset.mem_coe.mp hx)
  exact hf o s id

/-- A disciplined handler leaves one release of the mutex it was granted, and no other. -/
theorem Disciplined.count {P : Program S K E σ κ χ} {kind : E → Kind}
    (hP : Disciplined P kind) {s : S} {t : ℚ} {st : σ} {e : E} {r : Outcome S K E σ}
    (hr : P.serve s t st e = some r) (u : ℚ) (s' : S) (id : ℕ) :
    ((r.tasks s u : List (Task S K E)) : Multiset (Task S K E)).countP (Task.Frees s' id) =
      if s' = s ∧ kind e = .locked .mutex id then 1 else 0 := by
  rw [Outcome.tasks, ← Multiset.coe_add, Multiset.countP_add,
    countP_frees_map (by intro o s id; cases o <;> exact fun h => h), Nat.zero_add]
  cases hc : r.cont with
  | unlock m i e' =>
    rw [(hP.unlock hr hc).1, Multiset.coe_countP, Cont.tasks, List.countP_singleton]
    simp only [decide_eq_true_eq]
    cases m
    · simp only [Task.Frees, Kind.locked.injEq, true_and, @eq_comm _ s']
      exact if_congr Iff.rfl rfl rfl
    · simp [Task.Frees]
    · simp [Task.Frees]
  | done =>
    have : ¬(s' = s ∧ kind e = .locked .mutex id) := fun h => by
      obtain ⟨e', he⟩ := hP.held hr h.2
      simp [hc] at he
    simp [Cont.tasks, this]
  | lock m i e' =>
    have : ¬(s' = s ∧ kind e = .locked .mutex id) := fun h => by
      obtain ⟨e', he⟩ := hP.held hr h.2
      simp [hc] at he
    rw [Multiset.coe_countP, Cont.tasks, List.countP_singleton, if_neg this]
    exact if_neg (by rw [decide_eq_true_eq]; exact fun h => h)

variable [DecidableEq K] {P : Program S K E σ κ χ} {kind : E → Kind}
  {A A' : Config S K E σ κ} {a : Option (Act S K E σ κ)}

/-- Mutual exclusion survives every step of a disciplined program. -/
theorem Exclusive.step (hP : Disciplined P kind) (hA : Exclusive kind A)
    (h : Step P A a A') : Exclusive kind A' := by
  cases h with
  | @serve s t x e tb r rest new hpool ht hx hr hnew =>
    obtain ⟨u, -, -, rfl⟩ := hnew
    have hxp : WellPlaced kind x := hA.placed x (by rw [hpool]; exact Multiset.mem_cons_self _ _)
    constructor
    · intro y hy
      rcases Multiset.mem_add.mp hy with hy | hy
      · exact hA.placed y (by rw [hpool]; exact Multiset.mem_cons_of_mem hy)
      rcases Outcome.mem_tasks.mp (Multiset.mem_coe.mp hy) with
        ⟨o, ho, rfl⟩ | ⟨m, id, e', hc, rfl⟩ | ⟨m, id, e', hc, rfl⟩
      · have := hP.outs hr ho
        cases o <;> exact this
      · exact hP.lock hr hc
      · exact (hP.unlock hr hc).2
    · intro s' id
      have hcount := hA.count s' id
      rw [hpool, Multiset.countP_cons] at hcount
      rw [Multiset.countP_add, hP.count hr]
      by_cases hs : s' = s
      · subst hs
        have := hx.count hxp id
        simp only [Function.update_self, true_and]
        omega
      · simp only [Function.update_of_ne hs, hs, false_and, if_false, Nat.add_zero]
        rw [if_neg (hx.not_frees hs id)] at hcount
        exact hcount
  | @release s t ready m id' tb rest hpool ht hready hg =>
    constructor
    · exact fun y hy => hA.placed y (by rw [hpool]; exact Multiset.mem_cons_of_mem hy)
    · intro s' id
      have hcount := hA.count s' id
      rw [hpool, Multiset.countP_cons] at hcount
      have hmut := LockTable.release?_mutex hg id
      by_cases hs : s' = s
      · subst hs
        simp only [Function.update_self]
        by_cases hc : m = .mutex ∧ id = id'
        · rw [if_pos hc] at hmut
          obtain ⟨rfl, rfl⟩ := hc
          rw [if_pos ⟨rfl, rfl⟩, hmut.1, if_pos rfl] at hcount
          rw [hmut.2]
          simpa using hcount
        · rw [if_neg hc] at hmut
          have hf : ¬(Task.release s' m id' none ready : Task S K E).Frees s' id := by
            cases m <;> first | exact fun h => h | exact fun h => hc ⟨rfl, h.2.symm⟩
          rw [if_neg hf] at hcount
          rw [hmut]
          exact hcount
      · have : ¬(Task.release s m id' none ready : Task S K E).Frees s' id := by
          cases m <;> first | exact fun h => h | exact fun h => hs h.1.symm
        simp only [Function.update_of_ne hs]
        rw [if_neg this] at hcount
        exact hcount
  | wait => exact ⟨hA.placed, hA.count⟩
  | @client k t e c r rest hpool ht hr =>
    constructor
    · intro y hy
      rcases Multiset.mem_add.mp hy with hy | hy
      · exact hA.placed y (by rw [hpool]; exact Multiset.mem_cons_of_mem hy)
      obtain ⟨o, ho, rfl⟩ := List.mem_map.mp (Multiset.mem_coe.mp hy)
      have := hP.client hr ho
      cases o <;> exact this
    · intro s' id
      have hcount := hA.count s' id
      rw [hpool, Multiset.countP_cons_of_neg _ (fun h => h)] at hcount
      rw [Multiset.countP_add, countP_frees_map (by intro o s id; cases o <;> exact fun h => h),
        Nat.add_zero]
      exact hcount

/-- Mutual exclusion holds all along a run. -/
theorem Run.exclusive {C : Cond S K E σ κ} {A₀ : Config S K E σ κ} {h : List (Act S K E σ κ)}
    (hP : Disciplined P kind) (h0 : Exclusive kind A₀) (hr : Run P C A₀ A h) :
    Exclusive kind A :=
  Run.induction (I := fun A _ => Exclusive kind A) h0 (fun _ ih hs _ => ih.step hP hs) hr

omit [DecidableEq K]

/-- A free mutex has no release outstanding. -/
theorem Exclusive.not_mem (hA : Exclusive kind A) {s : S} {id : ℕ}
    (hf : (A.locks s).mutex id = false) (e : Option E) (u : ℚ) :
    Task.release s .mutex id e u ∉ A.pool := by
  intro hm
  have h := hA.count s id
  rw [hf, if_neg (by simp), Multiset.countP_eq_zero] at h
  exact h _ hm ⟨rfl, rfl⟩

/-- The release of a mutex is the only one. -/
theorem Exclusive.not_mem_rest (hA : Exclusive kind A) {s : S} {id : ℕ} {e : Option E} {u : ℚ}
    {rest : Multiset (Task S K E)} (hpool : A.pool = .release s .mutex id e u ::ₘ rest)
    (e' : Option E) (u' : ℚ) : Task.release s .mutex id e' u' ∉ rest := by
  intro hm
  have h := hA.count s id
  rw [hpool, Multiset.countP_cons_of_pos _ ⟨rfl, rfl⟩] at h
  have hpos : 0 < rest.countP (Task.Frees s id) :=
    Multiset.countP_pos.mpr ⟨_, hm, ⟨rfl, rfl⟩⟩
  split at h <;> omega

end Exclusive

end CCSim
