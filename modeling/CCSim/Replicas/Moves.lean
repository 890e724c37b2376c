/-
# The replicas of a partition, seen as a replication machine

The two protocols handle versions in the same way: a PUT stamps a version under a lock and sends
it when the lock is given back, a replica update goes through a queue and is installed under a
lock, a heartbeat raises an entry of the version vector.  They differ in their events, in their
locks and in what else they do in between.

`Replicating` says how a protocol does these things: which part of a server's state is about
versions (`ReplicaState`), what an event is in this respect (`Role`), and that every handler moves
this part as its role tells it to (`Move`).  A move is then a step of the machine of
`Lib/Replication.lean`, or none; what the machine asks of it is collected in `Role.Allowed`.
-/
import CCSim.Lib.Replication
import CCSim.Lib.TaskPool
import CCSim.Cluster
import CCSim.Store

namespace CCSim

open Replication

variable {c : Cluster} {D : Type}

/-! ## 1. Versions -/

/-- A version with all that is stored of it. -/
abbrev Stored (c : Cluster) (D : Type) := Key × Item (Replica c) D

instance : Versioned (Stored c D) (Replica c) Key ℚ where
  key v := v.1
  time v := v.2.updateTime
  source v := v.2.sourceReplica

/-- What an update installs. -/
def ReplicaUpdate.stored (u : ReplicaUpdate (Replica c) D) : Stored c D := (u.key, u.item)

@[simp] theorem stored_key (v : Stored c D) : Versioned.key v = v.1 := rfl
@[simp] theorem stored_time (v : Stored c D) : Versioned.time v = v.2.updateTime := rfl
@[simp] theorem stored_source (v : Stored c D) : Versioned.source v = v.2.sourceReplica := rfl

@[simp] theorem ReplicaUpdate.stored_fst (u : ReplicaUpdate (Replica c) D) : u.stored.1 = u.key :=
  rfl
@[simp] theorem ReplicaUpdate.stored_time (u : ReplicaUpdate (Replica c) D) :
    u.stored.2.updateTime = u.updateTime := rfl
@[simp] theorem ReplicaUpdate.stored_source (u : ReplicaUpdate (Replica c) D) :
    u.stored.2.sourceReplica = u.sourceReplica := rfl

/-- Updates that install the same are updates of the same version. -/
theorem ReplicaUpdate.version_eq {u w : ReplicaUpdate (Replica c) D} (h : u.stored = w.stored) :
    u.version = w.version := by
  have hkey : u.key = w.key := congrArg Prod.fst h
  have hitem : u.item = w.item := congrArg Prod.snd h
  simp only [ReplicaUpdate.item, Item.mk.injEq] at hitem
  simp only [ReplicaUpdate.version, Version.mk.injEq]
  exact ⟨hkey, hitem.1, hitem.2.1, hitem.2.2.2.1⟩

/-! ## 2. What a protocol does with versions -/

/-- The part of a server's state that is about versions.  `making` are the updates that are
stamped and not sent yet; the own entry of the version vector is left out (it is 0). -/
structure ReplicaState (c : Cluster) (D : Type) where
  store : Store (Replica c) D
  versionVector : Replica c → ℚ
  queues : Replica c → List (ReplicaUpdate (Replica c) D)
  making : ℕ → Option (ReplicaUpdate (Replica c) D)

/-- What an event is about, as far as versions go. -/
inductive Role (c : Cluster) (D : Type)
  | put (id : ℕ)
  | made (id : ℕ)
  | update (u : ReplicaUpdate (Replica c) D)
  | install (u : ReplicaUpdate (Replica c) D)
  | leave (u : ReplicaUpdate (Replica c) D)
  | beat (j : Replica c) (y : ℚ)
  | raise (j : Replica c) (y : ℚ)
  | promise
  | tick
  | other

/-- The job an event of the replica `r` stands for. -/
def Role.job (r : Replica c) : Role c D → Option (Job (Stored c D) (Replica c) ℚ)
  | .update u => some (.update r u.stored)
  | .install u => some (.install r u.stored)
  | .leave u => some (.leave r u.stored)
  | .beat j y => some (.beat r j y)
  | .raise j y => some (.raise r j y)
  | _ => none

/-- `Move rules r clock role l l' jobs`: handling an event of this role at the replica `r`, whose
clock shows `clock`, takes `l` to `l'` and leaves these jobs behind. -/
inductive Move (rules : UpdateRules (Replica c)) (r : Replica c) (clock : ℚ) :
    Role c D → ReplicaState c D → ReplicaState c D →
      Multiset (Job (Stored c D) (Replica c) ℚ) → Prop
  | other (l : ReplicaState c D) : Move rules r clock .other l l 0
  | put {l : ReplicaState c D} (id : ℕ) (u : ReplicaUpdate (Replica c) D)
      (hr : u.sourceReplica = r) (ht : u.updateTime = clock)
      (hh : ∀ h ∈ (l.store u.key).head?, h.updateTime ≤ clock) :
      Move rules r clock (.put id) l { l with
        store := Function.update l.store u.key (u.item :: l.store u.key)
        making := Function.update l.making id (some u) } 0
  | discard {l : ReplicaState c D} (id : ℕ) :
      Move rules r clock (.put id) l { l with making := Function.update l.making id none } 0
  | made {l : ReplicaState c D} {id : ℕ} {u : ReplicaUpdate (Replica c) D} {rs : List (Replica c)}
      (hu : l.making id = some u) (hrs : ∀ j, j ∈ rs ↔ j ≠ r) (hd : rs.Nodup) :
      Move rules r clock (.made id) l { l with making := Function.update l.making id none }
        (updates rs u.stored)
  | discarded {l : ReplicaState c D} {id : ℕ} (hu : l.making id = none) :
      Move rules r clock (.made id) l l 0
  | promise {l : ReplicaState c D} {rs : List (Replica c)} (hrs : ∀ j ∈ rs, j ≠ r) :
      Move rules r clock .promise l l (beats rs r clock)
  | tick {l : ReplicaState c D} {rs : List (Replica c)} (hrs : ∀ j ∈ rs, j ≠ r) :
      Move rules r clock .tick l l (beats rs r 0)
  | beat {l : ReplicaState c D} {j : Replica c} {y : ℚ} (b : Bool) :
      Move rules r clock (.beat j y) l l (if b then {.raise r j y} else 0)
  | raise {l : ReplicaState c D} {j : Replica c} {y : ℚ} :
      Move rules r clock (.raise j y) l { l with
        versionVector := if j ≠ r ∧ l.versionVector j < y then Function.update l.versionVector j y
          else l.versionVector } 0
  | update {l : ReplicaState c D} {u : ReplicaUpdate (Replica c) D}
      {q : List (ReplicaUpdate (Replica c) D)} {n : Option (ReplicaUpdate (Replica c) D)}
      (h : replicaUpdateEnqueue rules l.store (l.queues u.sourceReplica) u = some (q, n)) :
      Move rules r clock (.update u) l
        { l with queues := Function.update l.queues u.sourceReplica q }
        (next r (n.map ReplicaUpdate.stored))
  | install {l : ReplicaState c D} {u : ReplicaUpdate (Replica c) D} :
      Move rules r clock (.install u) l { l with
        store := (putValue l.store u.key u.item).getD l.store
        versionVector := if u.sourceReplica ≠ r then
            Function.update l.versionVector u.sourceReplica u.updateTime
          else l.versionVector }
        {.leave r u.stored}
  | leave {l : ReplicaState c D} {u : ReplicaUpdate (Replica c) D}
      {q : List (ReplicaUpdate (Replica c) D)} {n : Option (ReplicaUpdate (Replica c) D)}
      (h : replicaUpdateDequeue rules l.store (l.queues u.sourceReplica) u = some (q, n)) :
      Move rules r clock (.leave u) l
        { l with queues := Function.update l.queues u.sourceReplica q }
        (next r (n.map ReplicaUpdate.stored))

/-- A chain only grows, at its top: by a PUT or by an install. -/
theorem Move.store {rules : UpdateRules (Replica c)} {r : Replica c} {clock : ℚ} {role : Role c D}
    {l l' : ReplicaState c D} {jobs : Multiset (Job (Stored c D) (Replica c) ℚ)}
    (hm : Move rules r clock role l l' jobs) (k : Key) :
    l'.store k = l.store k ∨ ∃ x : Item (Replica c) D, l'.store k = x :: l.store k ∧
      ((∃ id, role = .put id) ∧ x.sourceReplica = r ∧ x.updateTime = clock ∨
        ∃ u, role = .install u ∧ (k, x) = u.stored) := by
  cases hm with
  | put id u hr ht =>
    by_cases hk : k = u.key
    · subst hk
      exact .inr ⟨u.item, Function.update_self _ _ _, .inl ⟨⟨id, rfl⟩, hr, ht⟩⟩
    · exact .inl (Function.update_of_ne hk _ _)
  | @install _ u =>
    dsimp only
    unfold putValue
    by_cases hk : k = u.key
    · subst hk
      split
      · rename_i hc
        rw [hc]
        exact .inr ⟨u.item, Function.update_self _ _ _, .inr ⟨u, rfl, rfl⟩⟩
      · rename_i x chain hc
        split
        · exact .inl rfl
        · rw [hc]
          exact .inr ⟨u.item, Function.update_self _ _ _, .inr ⟨u, rfl, rfl⟩⟩
    · left
      split
      · exact Function.update_of_ne hk _ _
      · split
        · rfl
        · exact Function.update_of_ne hk _ _
  | _ => exact .inl rfl

/-- An update leaves its queue when it has been installed. -/
theorem Move.leave_mem {rules : UpdateRules (Replica c)} {r : Replica c} {clock : ℚ}
    {role : Role c D} {l l' : ReplicaState c D} {jobs : Multiset (Job (Stored c D) (Replica c) ℚ)}
    (hm : Move rules r clock role l l' jobs) {q : Replica c} {v : Stored c D}
    (hv : .leave q v ∈ jobs) : q = r ∧ ∃ u, role = .install u ∧ u.stored = v := by
  cases hm with
  | install =>
    cases Multiset.mem_singleton.mp hv
    exact ⟨rfl, _, rfl, rfl⟩
  | beat b => cases b <;> simp at hv
  | put | discard | discarded | raise | other => cases hv
  | made =>
    obtain ⟨_, -, h⟩ := mem_updates.mp hv
    cases h
  | promise | tick =>
    obtain ⟨_, -, h⟩ := mem_beats.mp hv
    cases h
  | update | leave =>
    obtain ⟨_, -, h⟩ := mem_next.mp hv
    cases h

/-! ## 3. What a protocol has to show -/

variable {E σ κ χ : Type}

/-- The job of partition `p` that a task stands for. -/
def Task.job (role : E → Role c D) (p : Partition c) (x : Task (ServerId c) (ClientId c) E) :
    Option (Job (Stored c D) (Replica c) ℚ) :=
  x.event?.bind fun se => if se.1.2 = p then (role se.2).job se.1.1 else none

/-- A protocol that replicates versions: the mutex that PUTs and clock ticks run under is `lock`,
a PUT that gets it is one of the key `putKey`, and every handler makes the move of its event's
role. -/
structure Replicating (P : Program (ServerId c) (ClientId c) E σ κ χ) (D : Type) where
  view : ServerId c → σ → ReplicaState c D
  role : E → Role c D
  kind : E → Kind
  lock : ℕ
  putKey : σ → ℕ → Option Key
  rules : ServerId c → UpdateRules (Replica c)
  rules_self : ∀ s, (rules s).self = s.1
  rules_owns : ∀ s, (rules s).owns = ownsKey s
  disciplined : Disciplined P kind
  kind_update : ∀ {e u}, role e = .update u → kind e = .plain
  kind_put : ∀ {e id}, role e = .put id → kind e = .locked .mutex lock
  kind_made : ∀ {e id}, role e = .made id → kind e = .unlocked .mutex lock
  kind_promise : ∀ {e}, role e = .promise → kind e = .unlocked .mutex lock
  put : ∀ {s t st e r id}, P.serve s t st e = some r → role e = .put id →
    r.noTime = false ∧ ∃ e', r.cont = .unlock .mutex lock (some e') ∧ role e' = .made id
  put_key : ∀ {s t st e r id}, P.serve s t st e = some r → role e = .put id →
    ∃ key ∈ putKey st id, ownsKey s key = true ∧
      ∀ k ≠ key, (view s r.state).store k = (view s st).store k
  move : ∀ {s t st e r}, P.serve s t st e = some r → ∃ jobs,
    Move (rules s) s.1 (c.clock s t) (role e) (view s st) (view s r.state) jobs ∧
      ∀ u p, ((r.tasks s u : List _) : Multiset _).filterMap (Task.job role p) =
        if p = s.2 then jobs else 0
  client : ∀ {k t x st e r}, P.client k t x st e = some r → ∀ o ∈ r.2, role o.event = .other

/-! ## 4. A move is a step of the machine -/

/-- The states of the replicas, put together to a state of the machine. -/
def assemble (L : Replica c → ReplicaState c D) (floor promised : Replica c → ℚ)
    (jobs : Multiset (Job (Stored c D) (Replica c) ℚ)) : State (Stored c D) (Replica c) Key ℚ where
  chain r k := ((L r).store k).map (k, ·)
  vector r j := (L r).versionVector j
  queue r j := ((L r).queues j).map ReplicaUpdate.stored
  making r i := ((L r).making i).map ReplicaUpdate.stored
  floor := floor
  promised := promised
  jobs := jobs

/-- An update that is dropped is covered. -/
theorem ReplicaUpdate.IsOlder.covers {zero : Replica c} {store : Store (Replica c) D}
    {u : ReplicaUpdate (Replica c) D} (h : u.IsOlder zero store) (hpos : 0 < u.updateTime) :
    Covers ((store u.key).map (u.key, ·)) u.stored := by
  simp only [IsOlder, latestItem_eq] at h
  cases hc : store u.key with
  | nil =>
    simp only [hc, List.head?_nil, updateTimeOf, sourceReplicaOf, Option.map_none,
      Option.getD_none] at h
    rcases h with h | ⟨h, -⟩ <;> linarith
  | cons x chain =>
    rw [hc] at h
    exact ⟨(u.key, x), rfl, h⟩

/-- The code's work on a queue is the machine's, unless it stalls. -/
theorem replicaUpdateWork_works {d : Discipline} {rules : UpdateRules (Replica c)}
    {store : Store (Replica c) D} {queue q : List (ReplicaUpdate (Replica c) D)}
    {n : Option (ReplicaUpdate (Replica c) D)}
    (h : replicaUpdateWork rules store queue = some (q, n)) (hpos : ∀ u ∈ queue, 0 < u.updateTime)
    (hs : d.noStall → n = none → q = []) :
    Works d (fun k => (store k).map (k, ·)) (queue.map ReplicaUpdate.stored)
      (q.map ReplicaUpdate.stored) (n.map ReplicaUpdate.stored) := by
  induction queue with
  | nil =>
    cases h
    exact .nil
  | cons u queue ih =>
    have hu := hpos u List.mem_cons_self
    unfold replicaUpdateWork at h
    split at h
    · cases h
    split at h
    · split at h
      · rename_i hold
        split at h
        · cases h
        · exact .drop (hold.covers hu) (ih h fun u hu => hpos u (List.mem_cons_of_mem _ hu))
      · split at h <;> cases h
        · exact .install _ _
        · exact .stall (fun hd => by cases hs hd rfl) _ _
    · cases h
      exact .install _ _

section Step

variable {d : Discipline} {L : Replica c → ReplicaState c D} {floor promised : Replica c → ℚ}
  {jobs : Multiset (Job (Stored c D) (Replica c) ℚ)} {r : Replica c} {clock : ℚ}
  {rules : UpdateRules (Replica c)}

/-- A component of the state of one replica that is left alone. -/
theorem same_component {A : Type} (f : ReplicaState c D → A) {l : ReplicaState c D}
    (h : f l = f (L r)) : (fun r' => f (Function.update L r l r')) = fun r' => f (L r') := by
  funext r'
  by_cases hr : r' = r
  · subst hr; simpa
  · simp [hr]

/-- A component of the state of one replica that is changed in one place. -/
theorem changed_component {A B : Type} [DecidableEq A] (f : ReplicaState c D → A → B)
    {l : ReplicaState c D} (a : A) {y : B} (h : ∀ a', f l a' = if a' = a then y else f (L r) a') :
    (fun r' => f (Function.update L r l r')) = set2 (fun r' => f (L r')) r a y := by
  funext r' a'
  by_cases hr : r' = r
  · subst hr; simp [h]
  · simp [hr]

theorem queue_component {l : ReplicaState c D} {j : Replica c}
    {q : List (ReplicaUpdate (Replica c) D)} (h : l.queues = Function.update (L r).queues j q) :
    (assemble (Function.update L r l) floor promised jobs).queue =
      set2 (assemble L floor promised jobs).queue r j (q.map ReplicaUpdate.stored) :=
  changed_component (fun l j => (l.queues j).map ReplicaUpdate.stored) j fun j' => by
    simp only [h, Function.update_apply, apply_ite (List.map ReplicaUpdate.stored)]

theorem making_component {l : ReplicaState c D} {id : ℕ}
    {u : Option (ReplicaUpdate (Replica c) D)}
    (h : l.making = Function.update (L r).making id u) :
    (assemble (Function.update L r l) floor promised jobs).making =
      set2 (assemble L floor promised jobs).making r id (u.map ReplicaUpdate.stored) :=
  changed_component (fun l i => (l.making i).map ReplicaUpdate.stored) id fun i => by
    simp only [h, Function.update_apply, apply_ite (Option.map ReplicaUpdate.stored)]

theorem chain_component {l : ReplicaState c D} {k : Key} {items : List (Item (Replica c) D)}
    (h : l.store = Function.update (L r).store k items) :
    (assemble (Function.update L r l) floor promised jobs).chain =
      set2 (assemble L floor promised jobs).chain r k (items.map (k, ·)) :=
  changed_component (fun l k => (l.store k).map (k, ·)) k fun k' => by
    simp only [h, Function.update_apply]
    by_cases hk : k' = k
    · subst hk; simp
    · simp [hk]

theorem vector_component {l : ReplicaState c D} {j : Replica c} {y : ℚ}
    (h : l.versionVector = Function.update (L r).versionVector j y) :
    (assemble (Function.update L r l) floor promised jobs).vector =
      set2 (assemble L floor promised jobs).vector r j y :=
  changed_component (fun l => l.versionVector) j fun j' => by
    simp only [h, Function.update_apply]

/-- A PUT that is not discarded accepts a version. -/
theorem step_put {id : ℕ} {u : ReplicaUpdate (Replica c) D} (hr : u.sourceReplica = r)
    (ht : u.updateTime = clock) (hh : ∀ h ∈ ((L r).store u.key).head?, h.updateTime ≤ clock)
    (hf : floor r < clock) (hp : d.afterBeats → promised r < clock)
    (hm : ∀ i, (L r).making i = none)
    (hn : d.noTie → NoTie (((L r).store u.key).map (u.key, ·)) u.stored) :
    Replication.Step d (assemble L floor promised jobs)
      (assemble (Function.update L r { L r with
          store := Function.update (L r).store u.key (u.item :: (L r).store u.key)
          making := Function.update (L r).making id (some u) })
        (Function.update floor r clock) promised jobs) := by
  subst hr ht
  convert Replication.Step.accept (x := assemble L floor promised jobs) (v := u.stored) id hf hp
    (fun i => congrArg (Option.map ReplicaUpdate.stored) (hm i)) (by simpa [assemble] using hh) hn
    using 1
  apply State.ext
  · exact (chain_component rfl).trans rfl
  · exact same_component (fun l => l.versionVector) rfl
  · exact same_component (fun l j => (l.queues j).map ReplicaUpdate.stored) rfl
  · exact (making_component rfl).trans rfl
  · rfl
  · rfl
  · rfl

/-- A PUT that is discarded changes nothing. -/
theorem discard_eq {id : ℕ} (hm : ∀ i, (L r).making i = none) :
    Function.update L r { L r with making := Function.update (L r).making id none } = L := by
  have h : Function.update (L r).making id none = (L r).making := by
    rw [← hm id, Function.update_eq_self]
  rw [h, Function.update_eq_self]

/-- When its lock has been given back, the version is sent. -/
theorem step_made {id : ℕ} {u : ReplicaUpdate (Replica c) D} {rs : List (Replica c)}
    (hu : (L r).making id = some u) (hrs : ∀ j, j ∈ rs ↔ j ≠ r) (hd : rs.Nodup) :
    Replication.Step d (assemble L floor promised jobs)
      (assemble (Function.update L r { L r with making := Function.update (L r).making id none })
        floor promised (jobs + updates rs u.stored)) := by
  convert Replication.Step.send (x := assemble L floor promised jobs) (i := id) (v := u.stored)
    (congrArg (Option.map ReplicaUpdate.stored) hu) hrs hd using 1
  apply State.ext
  · exact same_component (fun l k => (l.store k).map (k, ·)) rfl
  · exact same_component (fun l => l.versionVector) rfl
  · exact same_component (fun l j => (l.queues j).map ReplicaUpdate.stored) rfl
  · exact (making_component rfl).trans rfl
  · rfl
  · rfl
  · rfl

theorem step_promise {rs : List (Replica c)} (hm : ∀ i, (L r).making i = none)
    (hp : promised r ≤ clock) (hrs : ∀ j ∈ rs, j ≠ r) :
    Replication.Step d (assemble L floor promised jobs)
      (assemble L floor (Function.update promised r clock) (jobs + beats rs r clock)) :=
  Replication.Step.promise (x := assemble L floor promised jobs)
    (fun i => congrArg (Option.map ReplicaUpdate.stored) (hm i)) hp hrs

theorem step_raise {j : Replica c} {y : ℚ} (hjr : j ≠ r)
    (hq : d.noPassing → ∀ u ∈ (L r).queues j,
      y < u.updateTime ∨ u.updateTime ≤ (L r).versionVector j) :
    Replication.Step d (assemble L floor promised (.raise r j y ::ₘ jobs))
      (assemble (Function.update L r { L r with
          versionVector := if j ≠ r ∧ (L r).versionVector j < y then
              Function.update (L r).versionVector j y
            else (L r).versionVector }) floor promised jobs) := by
  convert Replication.Step.raise (x := assemble L floor promised (.raise r j y ::ₘ jobs)) rfl
    (by simpa [assemble] using hq) using 1
  apply State.ext
  · exact same_component (fun l k => (l.store k).map (k, ·)) rfl
  · refine vector_component ?_
    by_cases hlt : (L r).versionVector j < y
    · rw [if_pos ⟨hjr, hlt⟩]
      exact congrArg (Function.update _ j) (max_eq_right hlt.le).symm
    · rw [if_neg fun h => hlt h.2]
      exact ((congrArg (Function.update _ j) (max_eq_left (not_lt.mp hlt))).trans
        (Function.update_eq_self j _)).symm
  · exact same_component (fun l j => (l.queues j).map ReplicaUpdate.stored) rfl
  · exact same_component (fun l i => (l.making i).map ReplicaUpdate.stored) rfl
  · rfl
  · rfl
  · rfl

/-- An update that arrives joins its queue, or is worked on at once. -/
theorem step_update {u : ReplicaUpdate (Replica c) D} {q : List (ReplicaUpdate (Replica c) D)}
    {n : Option (ReplicaUpdate (Replica c) D)}
    (h : replicaUpdateEnqueue rules (L r).store ((L r).queues u.sourceReplica) u = some (q, n))
    (hur : u.sourceReplica ≠ r) (hpos : 0 < u.updateTime)
    (ho : d.inOrder → ∀ w, .update r w ∈ jobs → Versioned.source w = u.sourceReplica →
      u.updateTime ≤ Versioned.time w)
    (hs : d.noStall → (L r).queues u.sourceReplica = [] → n = none → q = []) :
    Replication.Step d (assemble L floor promised (.update r u.stored ::ₘ jobs))
      (assemble (Function.update L r
          { L r with queues := Function.update (L r).queues u.sourceReplica q })
        floor promised (next r (n.map ReplicaUpdate.stored) + jobs)) := by
  unfold replicaUpdateEnqueue at h
  split at h
  · rename_i hq
    have hw := replicaUpdateWork_works h (fun u' hu' => by rwa [List.mem_singleton.mp hu'])
      fun hd => hs hd hq
    convert Replication.Step.work
        (x := assemble L floor promised (.update r u.stored ::ₘ jobs)) rfl hur ho
      (congrArg (List.map ReplicaUpdate.stored) hq) hw using 1
    apply State.ext
    · exact same_component (fun l k => (l.store k).map (k, ·)) rfl
    · exact same_component (fun l => l.versionVector) rfl
    · exact queue_component rfl
    · exact same_component (fun l i => (l.making i).map ReplicaUpdate.stored) rfl
    · rfl
    · rfl
    · rfl
  · rename_i hq
    cases h
    convert Replication.Step.queue
        (x := assemble L floor promised (.update r u.stored ::ₘ jobs)) rfl hur ho
      (by simpa [assemble] using hq) using 1
    apply State.ext
    · exact same_component (fun l k => (l.store k).map (k, ·)) rfl
    · exact same_component (fun l => l.versionVector) rfl
    · rw [queue_component rfl, List.map_append]
      rfl
    · exact same_component (fun l i => (l.making i).map ReplicaUpdate.stored) rfl
    · rfl
    · rfl
    · exact Multiset.zero_add _

theorem putValue_installed (store : Store (Replica c) D) (u : ReplicaUpdate (Replica c) D) : 
    ∃ items, (putValue store u.key u.item).getD store = Function.update store u.key items ∧
      items.map (u.key, ·) = installed u.stored ((store u.key).map (u.key, ·)) := by
  unfold putValue
  split
  · rename_i h
    exact ⟨[u.item], rfl, by rw [h]; rfl⟩
  · rename_i x chain h
    split
    · rename_i hlt
      refine ⟨x :: chain, ?_, ?_⟩
      · rw [← h, Function.update_eq_self]
        rfl
      · rw [h]
        exact (if_pos hlt).symm
    · rename_i hlt
      refine ⟨u.item :: x :: chain, rfl, ?_⟩
      rw [h]
      exact (if_neg hlt).symm

theorem step_install {u : ReplicaUpdate (Replica c) D} (hur : u.sourceReplica ≠ r) 
    (hn : d.noTie → NoTie (((L r).store u.key).map (u.key, ·)) u.stored) :
    Replication.Step d (assemble L floor promised (.install r u.stored ::ₘ jobs))
      (assemble (Function.update L r { L r with
          store := (putValue (L r).store u.key u.item).getD (L r).store
          versionVector := if u.sourceReplica ≠ r then
              Function.update (L r).versionVector u.sourceReplica u.updateTime
            else (L r).versionVector }) floor promised (.leave r u.stored ::ₘ jobs)) := by
  obtain ⟨items, hi, hm⟩ := putValue_installed (L r).store u
  convert Replication.Step.install
        (x := assemble L floor promised (.install r u.stored ::ₘ jobs)) rfl hn using 1
  apply State.ext
  · rw [chain_component hi, hm]
    rfl
  · exact vector_component (if_pos hur)
  · exact same_component (fun l j => (l.queues j).map ReplicaUpdate.stored) rfl
  · exact same_component (fun l i => (l.making i).map ReplicaUpdate.stored) rfl
  · rfl
  · rfl
  · rfl

theorem step_leave {u : ReplicaUpdate (Replica c) D} {q : List (ReplicaUpdate (Replica c) D)}
    {n : Option (ReplicaUpdate (Replica c) D)}
    (h : replicaUpdateDequeue rules (L r).store ((L r).queues u.sourceReplica) u = some (q, n))
    (hx : Basic (assemble L floor promised (.leave r u.stored ::ₘ jobs)))
    (hs : d.noStall → n = none → q = []) :
    Replication.Step d (assemble L floor promised (.leave r u.stored ::ₘ jobs))
      (assemble (Function.update L r
          { L r with queues := Function.update (L r).queues u.sourceReplica q })
        floor promised (next r (n.map ReplicaUpdate.stored) + jobs)) := by
  have hf := hx.front r u.stored (.inr (Multiset.mem_cons_self _ _))
  unfold replicaUpdateDequeue at h
  split at h
  · cases h
  · rename_i front queue hq
    split at h
    · have hq' : (assemble L floor promised (.leave r u.stored ::ₘ jobs)).queue r u.sourceReplica =
          front.stored :: queue.map ReplicaUpdate.stored := by
        simp [assemble, hq]
      have hfu : front.stored = u.stored := by
        rw [show Versioned.source u.stored = u.sourceReplica from rfl, hq'] at hf
        exact Option.some.inj hf
      rw [hfu] at hq'
      have hpos : ∀ u' ∈ queue, 0 < u'.updateTime := fun u' hu' => by
        have hmem : u'.stored ∈
            (assemble L floor promised (.leave r u.stored ::ₘ jobs)).queue r u.sourceReplica := by
          rw [hq']; exact List.mem_cons_of_mem _ (List.mem_map_of_mem hu')
        have h1 := hx.queue _ _ _ hmem
        exact (hx.own _ _ _ h1.2.2 rfl).1
      have hw := replicaUpdateWork_works h hpos hs
      convert Replication.Step.leave
        (x := assemble L floor promised (.leave r u.stored ::ₘ jobs)) rfl hq' hw using 1
      apply State.ext
      · exact same_component (fun l k => (l.store k).map (k, ·)) rfl
      · exact same_component (fun l => l.versionVector) rfl
      · exact queue_component rfl
      · exact same_component (fun l i => (l.making i).map ReplicaUpdate.stored) rfl
      · rfl
      · rfl
      · rfl
    · cases h

end Step

/-! ## 5. The machine follows a move -/

/-- Work on this queue stops before an update that nobody installs. -/
def Stalls (rules : UpdateRules (Replica c)) (store : Store (Replica c) D)
    (queue : List (ReplicaUpdate (Replica c) D)) : Prop :=
  ∃ u q, replicaUpdateWork rules store queue = some (u :: q, none)

/-- An item goes on top of one of the same time and a larger source replica. -/
def Ties (store store' : Store (Replica c) D) : Prop :=
  ∃ key x, store' key = x :: store key ∧
    ∃ h ∈ (store key).head?, h.updateTime = x.updateTime ∧ x.sourceReplica < h.sourceReplica

theorem Stalls.empty {rules : UpdateRules (Replica c)} {store : Store (Replica c) D}
    {queue q : List (ReplicaUpdate (Replica c) D)} {n : Option (ReplicaUpdate (Replica c) D)}
    (h : replicaUpdateWork rules store queue = some (q, n)) (hs : ¬Stalls rules store queue)
    (hn : n = none) : q = [] := by
  subst hn
  cases q with
  | nil => rfl
  | cons u q => exact absurd ⟨u, q, h⟩ hs

theorem Ties.noTie {store store' : Store (Replica c) D} {key : Key} {x : Item (Replica c) D}
    (h : ¬Ties store store') (hx : store' key = x :: store key) :
    NoTie ((store key).map (key, ·)) ((key, x) : Stored c D) := by
  intro v hv ht hs
  rw [List.head?_map] at hv
  obtain ⟨y, hy, rfl⟩ := Option.map_eq_some_iff.mp hv
  exact h ⟨key, x, hx, y, hy, ht, hs⟩

/-- An update that is put on top covers no tie, and one that is discarded covers nothing. -/
theorem Ties.noTie_update {store : Store (Replica c) D} {u : ReplicaUpdate (Replica c) D}
    (h : ¬Ties store ((putValue store u.key u.item).getD store)) :
    NoTie ((store u.key).map (u.key, ·)) u.stored := by
  cases hc : store u.key with
  | nil =>
    intro v hv
    cases hv
  | cons y chain =>
    by_cases hlt : u.updateTime < y.updateTime
    · intro v hv ht
      cases hv
      exact absurd ht hlt.ne'
    · rw [← hc]
      refine Ties.noTie h ?_
      simp only [putValue, hc]
      rw [if_neg (by exact hlt), Option.getD_some, Function.update_self]

section Follow

variable {d : Discipline} {L : Replica c → ReplicaState c D} {floor promised : Replica c → ℚ}
  {jobs rest : Multiset (Job (Stored c D) (Replica c) ℚ)} {r : Replica c} {clock : ℚ}
  {rules : UpdateRules (Replica c)} {role : Role c D}

/-- What has to be known before a move: where the clock and the versions that are being made
stand, and what the discipline asks for. -/
def Role.Allowed (d : Discipline) (rules : UpdateRules (Replica c)) (r : Replica c) (clock : ℚ)
    (floor promised : ℚ) (rest : Multiset (Job (Stored c D) (Replica c) ℚ))
    (l l' : ReplicaState c D) : Role c D → Prop
  | .put _ => (∀ i, l.making i = none) ∧ floor < clock ∧ (d.afterBeats → promised < clock) ∧
      (d.noTie → ¬Ties l.store l'.store)
  | .promise => (∀ i, l.making i = none) ∧ promised ≤ clock
  | .install _ => d.noTie → ¬Ties l.store l'.store
  | .update u =>
      (d.inOrder → ∀ w, .update r w ∈ rest → w.2.sourceReplica = u.sourceReplica →
        u.updateTime ≤ w.2.updateTime) ∧
      (d.noStall → l.queues u.sourceReplica = [] → ¬Stalls rules l.store [u])
  | .leave u => d.noStall → ¬Stalls rules l.store (l.queues u.sourceReplica).tail
  | .beat j y => d.beatsInOrder → ∀ w, .update r w ∈ rest → w.2.sourceReplica = j →
      y < w.2.updateTime
  | .raise j y => d.noPassing → ∀ u ∈ l.queues j,
      y < u.updateTime ∨ u.updateTime ≤ l.versionVector j
  | _ => True

/-- A version is made from its PUT until it is sent. -/
theorem Move.making {l l' : ReplicaState c D} {new : Multiset (Job (Stored c D) (Replica c) ℚ)}
    (hm : Move rules r clock role l l' new) {i : ℕ} (hi : l'.making i ≠ none) :
    l.making i ≠ none ∧ role ≠ .made i ∨ role = .put i := by
  cases hm with
  | put id u =>
    by_cases h : i = id
    · exact .inr (by rw [h])
    · exact .inl ⟨by simpa [h] using hi, by simp⟩
  | discard id =>
    by_cases h : i = id
    · simp [h] at hi
    · exact .inl ⟨by simpa [h] using hi, by simp⟩
  | @made _ id u _ hu =>
    by_cases h : i = id
    · simp [h] at hi
    · exact .inl ⟨by simpa [h] using hi, fun hr => h (Role.made.inj hr).symm⟩
  | @discarded _ id hu => exact .inl ⟨hi, fun hr => hi (by cases hr; exact hu)⟩
  | _ => exact .inl ⟨hi, by simp⟩

/-- **A move is followed.**  The bounds change only with a PUT that is accepted and with a
heartbeat that carries a time. -/
theorem Move.reachable {l' : ReplicaState c D} {new : Multiset (Job (Stored c D) (Replica c) ℚ)}
    (hm : Move rules r clock role (L r) l' new)
    (hsome : ∀ j, role.job r = some j → jobs = j ::ₘ rest) (hnone : role.job r = none → jobs = rest)
    (hreach : Reachable d (assemble L floor promised jobs))
    (hC : role.Allowed d rules r clock (floor r) (promised r) rest (L r) l') :
    ∃ floor' promised',
      Reachable d (assemble (Function.update L r l') floor' promised' (rest + new)) ∧
      (floor' = floor ∨ (∃ id, role = .put id) ∧ floor' = Function.update floor r clock) ∧
      (promised' = promised ∨ role = .promise ∧
        promised' = Function.update promised r clock) := by
  cases hm with
  | other =>
    obtain rfl := hnone rfl
    exact ⟨floor, promised, by rwa [Function.update_eq_self, Multiset.add_zero], .inl rfl, .inl rfl⟩
  | put id u hr ht hh =>
    obtain rfl := hnone rfl
    obtain ⟨hmake, hf, hp, hn⟩ := hC
    refine ⟨_, promised, ?_, .inr ⟨⟨id, rfl⟩, rfl⟩, .inl rfl⟩
    rw [Multiset.add_zero]
    exact hreach.tail (step_put hr ht hh hf hp hmake fun hd =>
      Ties.noTie (hn hd) (Function.update_self _ _ _))
  | discard id =>
    obtain rfl := hnone rfl
    refine ⟨floor, promised, ?_, .inl rfl, .inl rfl⟩
    rwa [discard_eq hC.1, Multiset.add_zero]
  | made hu hrs hd =>
    obtain rfl := hnone rfl
    exact ⟨floor, promised, hreach.tail (step_made hu hrs hd), .inl rfl, .inl rfl⟩
  | discarded hu =>
    obtain rfl := hnone rfl
    exact ⟨floor, promised, by rwa [Function.update_eq_self, Multiset.add_zero], .inl rfl, .inl rfl⟩
  | promise hrs =>
    obtain rfl := hnone rfl
    refine ⟨floor, _, ?_, .inl rfl, .inr ⟨rfl, rfl⟩⟩
    rw [Function.update_eq_self]
    exact hreach.tail (step_promise hC.1 hC.2 hrs)
  | tick hrs =>
    obtain rfl := hnone rfl
    refine ⟨floor, promised, ?_, .inl rfl, .inl rfl⟩
    rw [Function.update_eq_self]
    exact hreach.tail (Replication.Step.tick hrs)
  | @beat _ j y b =>
    obtain rfl := hsome _ rfl
    refine ⟨floor, promised, ?_, .inl rfl, .inl rfl⟩
    rw [Function.update_eq_self]
    have hstep := Replication.Step.beat (x := assemble L floor promised (.beat r j y ::ₘ rest)) b
      rfl hC
    refine hreach.tail ?_
    cases b
    · rwa [if_neg (by simp), Multiset.add_zero]
    · rwa [if_pos rfl, Multiset.add_comm]
  | @raise _ j y =>
    obtain rfl := hsome _ rfl
    refine ⟨floor, promised, ?_, .inl rfl, .inl rfl⟩
    rw [Multiset.add_zero]
    exact hreach.tail (step_raise
      ((Reachable.basic hreach).raise _ _ _ (Multiset.mem_cons_self _ _)) hC)
  | @update _ u q n hw =>
    obtain rfl := hsome _ rfl
    have hx := (Reachable.basic hreach).update r u.stored (Multiset.mem_cons_self _ _)
    have hpos := ((Reachable.basic hreach).own _ _ _ hx.2 rfl).1
    refine ⟨floor, promised, ?_, .inl rfl, .inl rfl⟩
    rw [Multiset.add_comm]
    exact hreach.tail (step_update hw hx.1 hpos hC.1 fun hd hq =>
      Stalls.empty (by rwa [replicaUpdateEnqueue, if_pos hq] at hw) (hC.2 hd hq))
  | @install _ u =>
    obtain rfl := hsome _ rfl
    have hin := (Reachable.basic hreach).install r u.stored (Multiset.mem_cons_self _ _)
    have hx := (Reachable.basic hreach).queue _ _ _ hin
    refine ⟨floor, promised, ?_, .inl rfl, .inl rfl⟩
    rw [Multiset.add_comm]
    exact hreach.tail (step_install hx.2.1 fun hd => Ties.noTie_update (hC hd))
  | @leave _ u q n hw =>
    obtain rfl := hsome _ rfl
    refine ⟨floor, promised, ?_, .inl rfl, .inl rfl⟩
    rw [Multiset.add_comm]
    refine hreach.tail (step_leave hw (Reachable.basic hreach) fun hd => ?_)
    cases hq : (L r).queues u.sourceReplica with
    | nil => rw [hq] at hw; cases hw
    | cons u' queue =>
      rw [hq] at hw
      have hs : ¬Stalls rules (L r).store queue := by simpa [hq] using hC hd
      simp only [replicaUpdateDequeue] at hw
      split at hw
      · exact Stalls.empty hw hs
      · cases hw

end Follow

end CCSim
