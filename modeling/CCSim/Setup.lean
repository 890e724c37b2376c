/-
# The start of a simulation

`application.c` sets up one process for every server and every client, and the `INIT` event of
each creates its state.  This file describes the world after these events: every server has
scheduled its first clock tick and, if it is a leaf of the aggregation tree, its first GST
computation (`gr_init_state`, `grv_init_state`), and every client is about to make its first
decision (`client_init`).  The delays, the sizes of the messages and the clients are arbitrary.
-/
import CCSim.Kernel
import CCSim.Cluster
import CCSim.Lib.Mail
import Mathlib.Data.Fintype.Prod

namespace CCSim

/-- What a workload may do when it is asked: nothing, wait, or make a request.  All workloads of
the source are such sequences. -/
inductive Decision
  | nothing
  | tick (delay : ℚ)
  | get (key : Key)
  | put (key : Key) (value : Value)
  | rotx (keys : List Key)
  deriving DecidableEq

/-- What a simulation is set up with, besides the cluster.  `start` is a time before the first
event; clients start later than time 0 (`client_process_event`). -/
structure Setup (c : Cluster) (E : Type) where
  network : NetworkConfig (ServerId c ⊕ ClientId c)
  simulatedSize : E → ℕ
  clients : List (ℚ × ClientId c)
  start : ℚ
  start_pos : 0 < start
  start_le_clockInterval : start ≤ c.clockInterval
  start_le_gstInterval : start ≤ c.gstInterval
  start_le_clients : ∀ x ∈ clients, start ≤ x.1

variable {c : Cluster} {E σ κ χ : Type}

def Setup.conf (setup : Setup c E) : SimConfig (ServerId c) (ClientId c) E :=
  ⟨setup.network, setup.simulatedSize⟩

/-- `foreach_server`. -/
def allServers (c : Cluster) : List (ServerId c) :=
  (List.finRange c.numReplicas).flatMap fun r => (List.finRange c.numPartitions).map fun p => (r, p)

/-- The events a server schedules for itself when it is initialized. -/
def serverEvents (startGst clockTick : E) (s : ServerId c) :
    List (ℚ × Target (ServerId c) (ClientId c) E) :=
  (if isLeafPartition s.2 then [(c.gstInterval, .server s (.user startGst))] else []) ++
    [(c.clockInterval, .server s (.user clockTick))]

/-- The world after all `INIT` events; every server has `locks` mutexes. -/
def Setup.world (setup : Setup c E) (server : σ) (client : κ) (locks : ℕ)
    (startGst clockTick clientTick : E) : World (ServerId c) (ClientId c) E σ κ where
  now := setup.start
  servers _ := { state := server, cpu := { cores := c.numCores
                                           locks := List.replicate locks {} } }
  clients _ := { state := client }
  events := (allServers c).flatMap (serverEvents startGst clockTick) ++
    setup.clients.map fun x => (x.1, .client x.2 clientTick)

section World

variable {setup : Setup c E} {server : σ} {client : κ} {locks : ℕ}
  {startGst clockTick clientTick : E}

/-- All that has to be done at the start are the first ticks and GST computations. -/
theorem Setup.mem_pool {x : Task (ServerId c) (ClientId c) E}
    (hx : x ∈ (setup.world server client locks startGst clockTick clientTick).config.pool) :
    (∃ s, x = .pending s startGst ∧ isLeafPartition s.2 = true) ∨
      (∃ s, x = .pending s clockTick) ∨ ∃ k, x = .client k clientTick := by
  have hitems : ∀ s, ((setup.world server client locks startGst clockTick clientTick).servers
      s).cpu.items = 0 := by
    intro s
    simp [Setup.world, CpuState.items]
  simp only [World.config, hitems, Multiset.map_zero, Finset.sum_const_zero,
    Multiset.add_zero] at hx
  obtain ⟨ev, hev, hx⟩ := List.mem_filterMap.mp (Multiset.mem_coe.mp hx)
  rcases List.mem_append.mp hev with hev | hev
  · obtain ⟨s, -, hev⟩ := List.mem_flatMap.mp hev
    rcases List.mem_append.mp hev with hev | hev
    · split at hev
      · rename_i hleaf
        obtain rfl := List.mem_singleton.mp hev
        cases hx
        exact .inl ⟨s, rfl, hleaf⟩
      · cases hev
    · obtain rfl := List.mem_singleton.mp hev
      cases hx
      exact .inr (.inl ⟨s, rfl⟩)
  · obtain ⟨k, -, rfl⟩ := List.mem_map.mp hev
    cases hx
    exact .inr (.inr ⟨k.2, rfl⟩)

/-- These are also the first events in flight. -/
theorem Setup.mem_mail {x : (ServerId c ⊕ ClientId c) × E}
    (hx : x ∈ (setup.world server client locks startGst clockTick clientTick).config.mail.events) :
    (∃ s : ServerId c, x = (.inl s, startGst) ∧ isLeafPartition s.2 = true) ∨
      (∃ s, x = (.inl s, clockTick)) ∨ ∃ k, x = (.inr k, clientTick) := by
  obtain ⟨y, hy, hx⟩ := (Multiset.mem_filterMap _ _).mp hx
  rcases Setup.mem_pool hy with ⟨s, rfl, hleaf⟩ | ⟨s, rfl⟩ | ⟨k, rfl⟩
  · cases hx
    exact .inl ⟨s, rfl, hleaf⟩
  · cases hx
    exact .inr (.inl ⟨s, rfl⟩)
  · cases hx
    exact .inr (.inr ⟨k, rfl⟩)

/-- No lock is held at the start. -/
theorem Setup.unlocked (s : ServerId c) (id : ℕ) :
    ((setup.world server client locks startGst clockTick clientTick).config.locks s).mutex id =
      false := by
  simp only [World.config, Setup.world, CpuState.table, List.getElem?_replicate]
  split <;> rename_i h
  · split at h <;> cases h
    rfl
  · rfl

/-- Mutual exclusion holds at the start. -/
theorem Setup.exclusive {kind : E → Kind} (hs : kind startGst = .plain)
    (ht : kind clockTick = .plain) (hc : kind clientTick = .plain) :
    Exclusive kind (setup.world server client locks startGst clockTick clientTick).config where
  placed x hx := by
    rcases Setup.mem_pool hx with ⟨s, rfl, -⟩ | ⟨s, rfl⟩ | ⟨k, rfl⟩
    · exact hs
    · exact ht
    · exact hc
  count s id := by
    rw [Setup.unlocked, if_neg (by simp), Multiset.countP_eq_zero]
    intro x hx
    rcases Setup.mem_pool hx with ⟨s, rfl, -⟩ | ⟨s, rfl⟩ | ⟨k, rfl⟩ <;> exact fun h => h

end World

end CCSim
